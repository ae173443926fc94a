import Tyrne.Ipc.Spec
import Tyrne.Syscall.Abi
import Tyrne.Syscall.UserAccess

/-!
# The syscall dispatcher

The data-plane syscalls run on the IPC objects, the caller's table, the console and user
memory; the control-plane ones only return a directive. No failure is an error of the
dispatcher: each is reported in the status word.
-/

namespace Tyrne

/-- Bytes staged at a time by `console_write`. -/
def consoleWriteChunk : ℕ := 256

/-- What one dispatch reads and changes: the endpoints, the queues and the caller's table,
the bytes written to the console, and memory as seen through the task's address space. -/
structure SyscallContext (AS : Type) extends IpcCall where
  console : List (BitVec 8)
  memory : Memory
  userWindow : UserAccessWindow
  taskAs : AS
  hasCurrentTask : Bool

abbrev SyscallM (AS : Type) := Prog (SyscallContext AS) SyscallError

namespace SyscallContext

variable {AS α : Type}

def onIpc (m : IpcM α) : SyscallM AS α :=
  Prog.zoom toIpcCall (fun call ctx => { ctx with toIpcCall := call }) .ipc m

def onTable (m : TableM α) : SyscallM AS α :=
  Prog.zoom (fun ctx => ctx.table) (fun table ctx => { ctx with table }) .cap m

def onMemory (m : Prog Memory SyscallError α) : SyscallM AS α :=
  Prog.zoom memory (fun memory ctx => { ctx with memory }) id m

/-- `ctx.console.write_bytes(bytes)`. -/
def writeBytes (bytes : List (BitVec 8)) : SyscallM AS Unit :=
  Prog.modify fun ctx => { ctx with console := ctx.console ++ bytes }

/-- Fill the slice `buf` by a copy; the result is what it then holds. -/
def filled (buf : List (BitVec 8)) (m : Prog UserCopy SyscallError Unit) :
    SyscallM AS (List (BitVec 8)) :=
  ⟨fun ctx =>
    match m.run ⟨ctx.memory, buf⟩ with
    | .ok _ s => .ok s.buffer { ctx with memory := s.memory }
    | .err err s => .err err { ctx with memory := s.memory }
    | .panic p => .panic p⟩

/-- An error is returned in the status word. -/
def settle (m : SyscallM AS SyscallReturn) : Prog (SyscallContext AS) Empty SyscallReturn := do
  match ← m.attempt with
  | .ok ret => return ret
  | .error e => return .error e

end SyscallContext

open SyscallContext

section Handlers

variable {AS : Type}

def sysSend [Build] (args : Vector (BitVec 64) 6) : SyscallM AS SyscallReturn := do
  let epCap := decodeRequiredCapHandle (x0 args)
  let msg := decodeSendMessage args
  let transfer := decodeCapHandle (x5 args)
  let outcome ← onIpc (ipcSend epCap msg transfer)
  return SyscallReturn.ok.withPayload 0 (encodeSendOutcome outcome)

def sysRecv [Build] (args : Vector (BitVec 64) 6) : SyscallM AS SyscallReturn := do
  let epCap := decodeRequiredCapHandle (x0 args)
  let outcome ← onIpc (ipcRecv epCap)
  return encodeRecvOutcome outcome

/-- Resolve, kind, authority, in that order. -/
def validateDebugConsoleCap (consCap : CapHandle) : TableM Unit := do
  let cap ← CapabilityTable.lookup consCap
  Prog.require (cap.object.kind = .debugConsole) .wrongKind
  Prog.require (cap.rights.contains .consoleWrite) .insufficientRights

variable [Mmu AS]

/-- The cursor of `sysConsoleWrite`: the offset, and what the kernel stack buffer holds. -/
structure ChunkCursor where
  offset : ℕ
  buf : List (BitVec 8)

/-- One chunk of `sysConsoleWrite`. -/
def writeChunk (ptr len : ℕ) (cursor : ChunkCursor) : SyscallM AS ChunkCursor := do
  let ⟨offset, buf⟩ := cursor
  let remaining := wrappingSub len offset
  let chunk := min remaining consoleWriteChunk
  let chunkPtr ← Prog.okOr (checkedAdd ptr offset) .faultAddress
  let ctx ← Prog.get
  let bytes ← filled (buf.take chunk) (copyFromUser ctx.taskAs ctx.userWindow chunkPtr)
  writeBytes bytes
  let next ← Prog.okOr (checkedAdd offset chunk) .faultAddress
  return ⟨next, splice buf 0 bytes⟩

/-- Emit a user buffer: the capability gate, the range gate and the page gate come before
the first byte. -/
def sysConsoleWrite (args : Vector (BitVec 64) 6) : SyscallM AS SyscallReturn := do
  let consCap := decodeRequiredCapHandle (x0 args)
  let ptr := (x1 args).toNat
  let len := (x2 args).toNat
  onTable (validateDebugConsoleCap consCap)
  let ctx ← Prog.get
  ctx.userWindow.validate ptr len
  if len > 0 then
    SyscallContext.onMemory (probeUserPages ctx.taskAs ptr len false)
  else
    pure ()
  let _ ← Prog.loop (fun cursor => cursor.offset < len) (writeChunk ptr len) (len + 1)
    ⟨0, List.replicate consoleWriteChunk 0⟩
  return SyscallReturn.ok.withPayload 0 (BitVec.ofNat 64 len)

/-- Decode and execute one syscall. -/
def dispatch [Build] (args : SyscallArgs) : Prog (SyscallContext AS) Empty SyscallEffect := do
  match SyscallNumber.decode args.number with
  | none => return .resume (.error .badSyscallNumber)
  | some .send => return .resume (← settle (sysSend args.args))
  | some .recv => return .resume (← settle (sysRecv args.args))
  | some .taskYield =>
    let ctx ← Prog.get
    if ctx.hasCurrentTask then
      return .reschedule
    else
      return .resume (.error (.cap .invalidHandle))
  | some .taskExit =>
    let ctx ← Prog.get
    if ctx.hasCurrentTask then
      return .terminate (x0 args.args)
    else
      return .resume (.error (.cap .invalidHandle))
  | some .consoleWrite => return .resume (← settle (sysConsoleWrite args.args))

end Handlers

/-! ## What a dispatch does to the IPC objects -/

section Ends

variable {AS : Type} {ctx ctx' : SyscallContext AS} {m : SyscallM AS SyscallReturn}
  {ret : SyscallReturn}

theorem settle_ok (hm : m.run ctx = .ok ret ctx') : (settle m).run ctx = .ok ret ctx' := by
  unfold settle
  rw [Prog.bind_ok (Prog.attempt_ok hm)]
  rfl

theorem settle_err {e : SyscallError} (hm : m.run ctx = .err e ctx') :
    (settle m).run ctx = .ok (.error e) ctx' := by
  unfold settle
  rw [Prog.bind_ok (Prog.attempt_err hm)]
  rfl

theorem settle_panic {p : Panic} (hm : m.run ctx = .panic p) :
    (settle m).run ctx = .panic p := by
  unfold settle
  exact Prog.bind_panic (Prog.attempt_panic hm)

theorem settle_keeps {π : Type} {view : SyscallContext AS → π} (hm : m.Keeps view) :
    (settle m).Keeps view := by
  apply hm.attempt.bind
  intro r
  cases r with
  | ok ret => exact Prog.keeps_pure ret
  | error e => exact Prog.keeps_pure _

theorem filled_keeps (buf : List (BitVec 8)) (m : Prog UserCopy SyscallError Unit) :
    (filled buf m : SyscallM AS _).Keeps SyscallContext.toIpcCall := by
  intro ctx ctx' hctx
  unfold filled at hctx
  dsimp only at hctx
  cases hr : m.run ⟨ctx.memory, buf⟩ with
  | ok _ s =>
    rw [hr] at hctx
    cases hctx
    rfl
  | err err s =>
    rw [hr] at hctx
    cases hctx
    rfl
  | panic p =>
    rw [hr] at hctx
    cases hctx

theorem writeBytes_keeps (bytes : List (BitVec 8)) :
    (writeBytes bytes : SyscallM AS Unit).Keeps SyscallContext.toIpcCall :=
  Prog.keeps_modify fun _ => rfl

theorem validateDebugConsoleCap_keeps (consCap : CapHandle) :
    (validateDebugConsoleCap consCap).Keeps id := by
  refine (CapabilityTable.lookup_keeps consCap).bind fun cap => ?_
  exact (Prog.keeps_require _ _).bind fun _ => Prog.keeps_require _ _

variable [Mmu AS]

theorem writeChunk_keeps (ptr len : ℕ) (cursor : ChunkCursor) :
    (writeChunk ptr len cursor : SyscallM AS _).Keeps SyscallContext.toIpcCall := by
  obtain ⟨offset, buf⟩ := cursor
  unfold writeChunk
  dsimp only
  refine (Prog.keeps_okOr _ _).bind fun chunkPtr => ?_
  refine Prog.keeps_get.bind fun ctx => ?_
  refine (filled_keeps _ _).bind fun bytes => ?_
  refine (writeBytes_keeps bytes).bind fun _ => ?_
  exact (Prog.keeps_okOr _ _).bind fun next => Prog.keeps_pure _

/-- Writing to the console touches no capability and no endpoint. -/
theorem sysConsoleWrite_keeps (args : Vector (BitVec 64) 6) :
    (sysConsoleWrite args : SyscallM AS _).Keeps SyscallContext.toIpcCall := by
  unfold sysConsoleWrite
  have hgate : (onTable (validateDebugConsoleCap (decodeRequiredCapHandle (x0 args))) :
      SyscallM AS _).Keeps id := (validateDebugConsoleCap_keeps _).zoom fun _ => rfl
  refine (hgate.of_all _).bind fun _ => ?_
  refine Prog.keeps_get.bind fun ctx => ?_
  refine ((UserAccessWindow.validate_keeps _ _ _).of_all _).bind fun _ => ?_
  have hprobe : (SyscallContext.onMemory (probeUserPages ctx.taskAs (x1 args).toNat (x2 args).toNat
      false) : SyscallM AS _).Keeps SyscallContext.toIpcCall := by
    apply Prog.keeps_zoom
    intro _ _
    rfl
  have hrest (ret : SyscallReturn) (fuel : ℕ) (cursor : ChunkCursor) :
      (do let _ ← Prog.loop (fun cursor => cursor.offset < (x2 args).toNat)
            (writeChunk (x1 args).toNat (x2 args).toNat) fuel cursor
          return ret : SyscallM AS _).Keeps SyscallContext.toIpcCall := by
    have hchunk (cursor : ChunkCursor) :
        (writeChunk (x1 args).toNat (x2 args).toNat cursor : SyscallM AS _).Keeps
          SyscallContext.toIpcCall := writeChunk_keeps _ _ cursor
    have hloop := Prog.Keeps.loop (c := fun cursor => cursor.offset < (x2 args).toNat) hchunk
      fuel cursor
    exact hloop.bind fun _ => Prog.keeps_pure ret
  dsimp only
  split
  · exact hprobe.bind fun _ => hrest _ _ _
  · exact hrest _ _ _

section DispatchEnd

variable [Build]

/-- What a dispatch that returned `effect` has done to the endpoints and the table. -/
inductive DispatchEnd (ctx : SyscallContext AS) (args : SyscallArgs) :
    SyscallEffect → IpcCall → Prop
  | quiet {ret : SyscallReturn} : DispatchEnd ctx args (.resume ret) ctx.toIpcCall
  | refused {err : IpcError} {queues : IpcQueues} : Refused ctx.epArena ctx.queues queues →
      DispatchEnd ctx args (.resume (.error (.ipc err))) { ctx.toIpcCall with queues }
  | sent {outcome : SendOutcome} {call : IpcCall} :
      SyscallNumber.decode args.number = some .send →
      SendEnd ctx.toIpcCall (decodeRequiredCapHandle (x0 args.args)) (decodeSendMessage args.args)
        (decodeCapHandle (x5 args.args)) (.ok outcome call) →
      DispatchEnd ctx args
        (.resume (SyscallReturn.ok.withPayload 0 (encodeSendOutcome outcome))) call
  | received {outcome : RecvOutcome} {call : IpcCall} :
      SyscallNumber.decode args.number = some .recv →
      RecvEnd ctx.toIpcCall (decodeRequiredCapHandle (x0 args.args)) (.ok outcome call) →
      DispatchEnd ctx args (.resume (encodeRecvOutcome outcome)) call
  | yields : ctx.hasCurrentTask = true → DispatchEnd ctx args .reschedule ctx.toIpcCall
  | exits : ctx.hasCurrentTask = true →
      DispatchEnd ctx args (.terminate (x0 args.args)) ctx.toIpcCall

variable {args : SyscallArgs} {effect : SyscallEffect}

omit [Build] [Mmu AS] in
theorem resume_settled (hrun : (do return .resume (← settle m) :
      Prog (SyscallContext AS) Empty SyscallEffect).run ctx = .ok effect ctx') :
    ∃ ret, effect = .resume ret ∧ (settle m).run ctx = .ok ret ctx' := by
  obtain ⟨ret, ctx₁, hsettle, hpure⟩ := Prog.bind_eq_ok.mp hrun
  cases hpure
  exact ⟨ret, rfl, hsettle⟩

omit [Build] [Mmu AS] in
/-- An IPC syscall returns what the call returned, or its error as a status. -/
theorem settle_onIpc {α : Type} {call : IpcM α} {f : α → SyscallReturn}
    (hrun : (settle (do return f (← onIpc call) : SyscallM AS _)).run ctx = .ok ret ctx') :
    (∃ a, call.run ctx.toIpcCall = .ok a ctx'.toIpcCall ∧ ret = f a) ∨
      ∃ err, call.run ctx.toIpcCall = .err err ctx'.toIpcCall ∧ ret = .error (.ipc err) := by
  cases hr : call.run ctx.toIpcCall with
  | ok a c =>
    have hok : (do return f (← onIpc call) : SyscallM AS _).run ctx =
        .ok (f a) { ctx with toIpcCall := c } := Prog.bind_ok (Prog.zoom_ok hr)
    rw [settle_ok hok] at hrun
    cases hrun
    exact Or.inl ⟨a, rfl, rfl⟩
  | err err c =>
    have herr : (do return f (← onIpc call) : SyscallM AS _).run ctx =
        .err (.ipc err) { ctx with toIpcCall := c } := Prog.bind_err (Prog.zoom_err hr)
    rw [settle_err herr] at hrun
    cases hrun
    exact Or.inr ⟨err, rfl, rfl⟩
  | panic p =>
    have hpanic : (do return f (← onIpc call) : SyscallM AS _).run ctx = .panic p :=
      Prog.bind_panic (Prog.zoom_panic hr)
    rw [settle_panic hpanic] at hrun
    cases hrun

theorem dispatch_end (hwf : ctx.table.WellFormed)
    (hrun : (dispatch args).run ctx = .ok effect ctx') :
    DispatchEnd ctx args effect ctx'.toIpcCall := by
  unfold dispatch at hrun
  cases hnumber : SyscallNumber.decode args.number with
  | none =>
    rw [hnumber] at hrun
    cases hrun
    exact .quiet
  | some number =>
    rw [hnumber] at hrun
    cases number with
    | send =>
      obtain ⟨ret, rfl, hsettle⟩ := resume_settled hrun
      have hend := ipcSend_end (s := ctx.toIpcCall) hwf (decodeRequiredCapHandle (x0 args.args))
        (decodeSendMessage args.args) (decodeCapHandle (x5 args.args))
      rcases settle_onIpc hsettle with ⟨outcome, hr, rfl⟩ | ⟨err, hr, rfl⟩
      · exact .sent hnumber (hr ▸ hend)
      · rw [hr] at hend
        generalize ctx'.toIpcCall = call at hend
        cases hend with
        | refused hq => exact .refused hq
    | recv =>
      obtain ⟨ret, rfl, hsettle⟩ := resume_settled hrun
      have hend := ipcRecv_end (s := ctx.toIpcCall) hwf (decodeRequiredCapHandle (x0 args.args))
      rcases settle_onIpc hsettle with ⟨outcome, hr, rfl⟩ | ⟨err, hr, rfl⟩
      · exact .received hnumber (hr ▸ hend)
      · rw [hr] at hend
        generalize ctx'.toIpcCall = call at hend
        cases hend with
        | refused hq => exact .refused hq
    | taskYield =>
      dsimp only at hrun
      rw [Prog.get_bind_run] at hrun
      split at hrun
      · next hcurrent =>
        cases hrun
        exact .yields hcurrent
      · cases hrun
        exact .quiet
    | taskExit =>
      dsimp only at hrun
      rw [Prog.get_bind_run] at hrun
      split at hrun
      · next hcurrent =>
        cases hrun
        exact .exits hcurrent
      · cases hrun
        exact .quiet
    | consoleWrite =>
      obtain ⟨ret, rfl, hsettle⟩ := resume_settled hrun
      have hwrites : (sysConsoleWrite args.args : SyscallM AS _).Keeps toIpcCall :=
        sysConsoleWrite_keeps args.args
      have hkeeps := settle_keeps hwrites
      have hsame := hkeeps ctx ctx' (by rw [hsettle]; rfl)
      rw [hsame]
      exact .quiet

end DispatchEnd

end Ends

end Tyrne
