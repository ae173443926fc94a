import Tyrne.Syscall.Copies
import Tyrne.Syscall.Dispatch

/-!
# The console write

`sysConsoleWrite` has three gates: the capability, the window and the pages. Past them
it emits the whole range, and no chunk fails; before them it emits nothing.
-/

namespace Tyrne

open SyscallContext CapabilityTable

/-- The handle resolves to a console capability with the right to write. -/
def MayWrite (table : CapabilityTable) (consCap : CapHandle) : Prop :=
  ∃ e, Resolves table consCap e ∧ e.capability.object.kind = .debugConsole ∧
    e.capability.rights.contains .consoleWrite

theorem validateDebugConsoleCap_cases (table : CapabilityTable) (consCap : CapHandle) :
    (MayWrite table consCap ∧ (validateDebugConsoleCap consCap).run table = .ok () table) ∨
    (¬ MayWrite table consCap ∧
      ∃ err, (validateDebugConsoleCap consCap).run table = .err err table) := by
  unfold validateDebugConsoleCap
  rcases lookup_cases table consCap with ⟨e, he, hok⟩ | ⟨hnone, herr⟩
  · rw [Prog.bind_ok hok]
    have honly : ∀ e', Resolves table consCap e' → e' = e := fun e' he' => he'.unique he
    by_cases hkind : e.capability.object.kind = .debugConsole
    · rw [Prog.require_pos hkind, Prog.pure_bind_run]
      by_cases hright : e.capability.rights.contains .consoleWrite
      · rw [Prog.require_pos hright]
        exact Or.inl ⟨⟨e, he, hkind, hright⟩, rfl⟩
      · rw [Prog.require_neg hright]
        refine Or.inr ⟨?_, _, rfl⟩
        intro hmay
        obtain ⟨e', he', _, hcon⟩ := hmay
        exact hright (honly e' he' ▸ hcon)
    · rw [Prog.require_neg hkind]
      refine Or.inr ⟨?_, _, rfl⟩
      intro hmay
      obtain ⟨e', he', hcon, _⟩ := hmay
      exact hkind (honly e' he' ▸ hcon)
  · refine Or.inr ⟨?_, _, Prog.bind_err herr⟩
    intro hmay
    obtain ⟨e, he, _⟩ := hmay
    exact hnone e he

section

variable {AS : Type} [Mmu AS] {ctx : SyscallContext AS}

/-- The three gates of a write of `[ptr, ptr + len)`. -/
structure ConsoleGates (ctx : SyscallContext AS) (consCap : CapHandle) (ptr len : ℕ) : Prop where
  mayWrite : MayWrite ctx.table consCap
  contains : ctx.userWindow.Contains ptr len
  grants : GrantsRange ctx.taskAs ctx.memory false ptr len

/-- `ctx` after the bytes of `[ptr, ptr + n)` have gone out. -/
def written (ctx : SyscallContext AS) (ptr n : ℕ) : SyscallContext AS :=
  { ctx with console := ctx.console ++ userBytes ctx.taskAs ctx.memory ptr n }

variable {ptr len : ℕ}

theorem written_zero : written ctx ptr 0 = ctx := by
  unfold written userBytes
  rw [List.range_zero, List.map_nil, List.append_nil]

theorem written_add (off n : ℕ) : { written ctx ptr off with
    console := (written ctx ptr off).console ++ userBytes ctx.taskAs ctx.memory (ptr + off) n } =
      written ctx ptr (off + n) := by
  unfold written
  rw [userBytes_add, List.append_assoc]

/-- The bytes of one chunk. -/
def chunkOf (len offset : ℕ) : ℕ := min (len - offset) consoleWriteChunk

theorem chunkOf_spec {offset : ℕ} (hlt : offset < len) :
    0 < chunkOf len offset ∧ offset + chunkOf len offset ≤ len ∧
      chunkOf len offset ≤ consoleWriteChunk := by
  unfold chunkOf consoleWriteChunk
  omega

theorem length_splice {buf bytes : List (BitVec 8)} (hle : bytes.length ≤ buf.length) :
    (splice buf 0 bytes).length = buf.length := by
  unfold splice
  rw [List.take_zero, List.nil_append, Nat.zero_add, List.length_append, List.length_drop]
  omega

/-- Past the gates no chunk fails: its copy is contained and granted, and neither sum
overflows. -/
theorem writeChunk_run (htranslates : Translates ctx.taskAs ctx.memory)
    (hcontains : ctx.userWindow.Contains ptr len)
    (hgrants : GrantsRange ctx.taskAs ctx.memory false ptr len) {offset : ℕ}
    {buf : List (BitVec 8)} (hbuf : buf.length = consoleWriteChunk) (hlt : offset < len) :
    ∃ buf', buf'.length = consoleWriteChunk ∧
      (writeChunk ptr len ⟨offset, buf⟩).run (written ctx ptr offset) =
        .ok ⟨offset + chunkOf len offset, buf'⟩
          (written ctx ptr (offset + chunkOf len offset)) := by
  have hsum := hcontains.lt (by omega)
  obtain ⟨hpos, hle, hchunk⟩ := chunkOf_spec hlt
  have hremaining : wrappingSub len offset = len - offset := wrappingSub_eq hlt.le (by omega)
  have hptr : checkedAdd ptr offset = some (ptr + offset) := if_pos (by omega)
  have hnext : checkedAdd offset (chunkOf len offset) = some (offset + chunkOf len offset) :=
    if_pos (by omega)
  have hlength : (buf.take (chunkOf len offset)).length = chunkOf len offset := by
    rw [List.length_take]
    omega
  have hcopy : (copyFromUser ctx.taskAs ctx.userWindow (ptr + offset)).run
      ⟨ctx.memory, buf.take (chunkOf len offset)⟩ = .ok ()
        ⟨ctx.memory, userBytes ctx.taskAs ctx.memory (ptr + offset) (chunkOf len offset)⟩ := by
    rw [← hlength] at hle
    have hdone := copyFromUser_ok htranslates (hcontains.part hle) (hgrants.part hle)
    rwa [hlength] at hdone
  have hfilled : (filled (buf.take (chunkOf len offset))
      (copyFromUser ctx.taskAs ctx.userWindow (ptr + offset))).run (written ctx ptr offset) =
        .ok (userBytes ctx.taskAs ctx.memory (ptr + offset) (chunkOf len offset))
          (written ctx ptr offset) := by
    unfold filled
    dsimp only [written]
    rw [hcopy]
  refine ⟨splice buf 0 (userBytes ctx.taskAs ctx.memory (ptr + offset) (chunkOf len offset)),
    ?_, ?_⟩
  · rw [length_splice, hbuf]
    rw [length_userBytes, hbuf]
    exact hchunk
  · unfold writeChunk
    dsimp only
    rw [hremaining, hptr, Prog.okOr_some, Prog.pure_bind_run, Prog.get_bind_run]
    change (filled (buf.take (chunkOf len offset))
      (copyFromUser ctx.taskAs ctx.userWindow (ptr + offset)) >>= _).run _ = _
    rw [Prog.bind_ok hfilled]
    change (do
      let next ← Prog.okOr (checkedAdd offset (chunkOf len offset)) SyscallError.faultAddress
      return (⟨next, _⟩ : ChunkCursor) : SyscallM AS ChunkCursor).run _ = _
    rw [hnext, Prog.okOr_some, Prog.pure_bind_run, Prog.pure_run, ← written_add]

/-- The state of the chunk loop: what is before the cursor is out. -/
structure ChunkInv (ctx : SyscallContext AS) (ptr len : ℕ) (cursor : ChunkCursor)
    (s : SyscallContext AS) : Prop where
  offset : cursor.offset ≤ len
  buf : cursor.buf.length = consoleWriteChunk
  state : s = written ctx ptr cursor.offset

theorem chunkInv_start : ChunkInv ctx ptr len ⟨0, List.replicate consoleWriteChunk 0⟩ ctx where
  offset := Nat.zero_le _
  buf := List.length_replicate
  state := written_zero.symm

theorem chunkInv_step (htranslates : Translates ctx.taskAs ctx.memory)
    (hcontains : ctx.userWindow.Contains ptr len)
    (hgrants : GrantsRange ctx.taskAs ctx.memory false ptr len) (cursor : ChunkCursor)
    (s : SyscallContext AS) (hinv : ChunkInv ctx ptr len cursor s) (hlt : cursor.offset < len) :
    ∃ cursor' s', (writeChunk ptr len cursor).run s = .ok cursor' s' ∧
      len - cursor'.offset < len - cursor.offset ∧ ChunkInv ctx ptr len cursor' s' := by
  obtain ⟨offset, buf⟩ := cursor
  obtain ⟨hoffset, hbuf, hs⟩ := hinv
  have hlt : offset < len := hlt
  have hbuf : buf.length = consoleWriteChunk := hbuf
  have hs : s = written ctx ptr offset := hs
  obtain ⟨hpos, hle, hchunk⟩ := chunkOf_spec hlt
  obtain ⟨buf', hbuf', hrun⟩ := writeChunk_run htranslates hcontains hgrants hbuf hlt
  rw [hs]
  refine ⟨⟨offset + chunkOf len offset, buf'⟩, _, hrun, ?_, hle, hbuf', rfl⟩
  have hless : len - (offset + chunkOf len offset) < len - offset := by omega
  exact hless

/-- Past the gates the chunks put out the whole range. -/
theorem writeChunks_run (htranslates : Translates ctx.taskAs ctx.memory)
    (hcontains : ctx.userWindow.Contains ptr len)
    (hgrants : GrantsRange ctx.taskAs ctx.memory false ptr len) :
    ∃ cursor, (Prog.loop (fun cursor => cursor.offset < len) (writeChunk ptr len) (len + 1)
      ⟨0, List.replicate consoleWriteChunk 0⟩).run ctx = .ok cursor (written ctx ptr len) := by
  have hfuel : len - 0 < len + 1 := by omega
  obtain ⟨cursor, s, hrun, hinv, hend⟩ :=
    Prog.loop_ok (μ := fun cursor : ChunkCursor => len - cursor.offset)
      (chunkInv_step htranslates hcontains hgrants) chunkInv_start hfuel
  have hall : cursor.offset = len := Nat.le_antisymm hinv.offset (Nat.le_of_not_lt hend)
  rw [hinv.state, hall] at hrun
  exact ⟨cursor, hrun⟩

/-! ## The whole call -/

variable {args : Vector (BitVec 64) 6}

/-- Past the gates the call succeeds. -/
theorem sysConsoleWrite_ok (htranslates : Translates ctx.taskAs ctx.memory)
    (hgates :
      ConsoleGates ctx (decodeRequiredCapHandle (x0 args)) (x1 args).toNat (x2 args).toNat) :
    (sysConsoleWrite args).run ctx =
      .ok (SyscallReturn.ok.withPayload 0 (x2 args))
        (written ctx (x1 args).toNat (x2 args).toNat) := by
  obtain ⟨hmay, hcontains, hgrants⟩ := hgates
  have hcap : (onTable (validateDebugConsoleCap (decodeRequiredCapHandle (x0 args)))).run ctx =
      .ok () ctx := by
    rcases validateDebugConsoleCap_cases ctx.table (decodeRequiredCapHandle (x0 args)) with
      ⟨_, hrun⟩ | ⟨hnot, _⟩
    · exact Prog.zoom_ok hrun
    · exact absurd hmay hnot
  obtain ⟨cursor, hloop⟩ := writeChunks_run htranslates hcontains hgrants
  have hrest : (do
      let _ ← Prog.loop (fun cursor => cursor.offset < (x2 args).toNat)
        (writeChunk (x1 args).toNat (x2 args).toNat) ((x2 args).toNat + 1)
        ⟨0, List.replicate consoleWriteChunk 0⟩
      return SyscallReturn.ok.withPayload 0 (BitVec.ofNat 64 (x2 args).toNat) :
        SyscallM AS SyscallReturn).run ctx =
      .ok (SyscallReturn.ok.withPayload 0 (x2 args))
        (written ctx (x1 args).toNat (x2 args).toNat) := by
    rw [Prog.bind_ok hloop, BitVec.ofNat_toNat, BitVec.setWidth_eq]
    rfl
  unfold sysConsoleWrite
  dsimp only
  rw [Prog.bind_ok hcap, Prog.get_bind_run,
    Prog.bind_ok (UserAccessWindow.validate_ok hcontains ctx)]
  split
  · next hlen =>
    have hprobe : (SyscallContext.onMemory (probeUserPages ctx.taskAs (x1 args).toNat
        (x2 args).toNat false)).run ctx = .ok () ctx := by
      rcases probeUserPages_run htranslates hlen (hcontains.lt hlen) with ⟨_, hrun⟩ | ⟨hnot, _⟩
      · exact Prog.zoom_ok hrun
      · exact absurd hgrants hnot
    rw [Prog.bind_ok hprobe]
    exact hrest
  · exact hrest

/-- A write that fails a gate changes nothing. -/
theorem sysConsoleWrite_err (htranslates : Translates ctx.taskAs ctx.memory)
    (hgates : ¬ ConsoleGates ctx (decodeRequiredCapHandle (x0 args)) (x1 args).toNat
      (x2 args).toNat) :
    ∃ err, (sysConsoleWrite args).run ctx = .err err ctx := by
  unfold sysConsoleWrite
  dsimp only
  rcases validateDebugConsoleCap_cases ctx.table (decodeRequiredCapHandle (x0 args)) with
    ⟨hmay, hrun⟩ | ⟨_, err, hrun⟩
  · have hcap : (onTable (validateDebugConsoleCap (decodeRequiredCapHandle (x0 args)))).run ctx =
        .ok () ctx := Prog.zoom_ok hrun
    rw [Prog.bind_ok hcap, Prog.get_bind_run]
    by_cases hcontains : ctx.userWindow.Contains (x1 args).toNat (x2 args).toNat
    · rw [Prog.bind_ok (UserAccessWindow.validate_ok hcontains ctx)]
      have hrefused : ¬ GrantsRange ctx.taskAs ctx.memory false (x1 args).toNat (x2 args).toNat :=
        fun hgrants => hgates ⟨hmay, hcontains, hgrants⟩
      split
      · next hlen =>
        rcases probeUserPages_run htranslates hlen (hcontains.lt hlen) with ⟨hyes, _⟩ | ⟨_, hrun⟩
        · exact absurd hyes hrefused
        · exact ⟨_, Prog.bind_err (Prog.zoom_err hrun)⟩
      · next hlen =>
        exact absurd (fun j hj => absurd (Nat.zero_lt_of_lt hj) hlen) hrefused
    · exact ⟨_, Prog.bind_err (UserAccessWindow.validate_err hcontains ctx)⟩
  · exact ⟨_, Prog.bind_err (Prog.zoom_err hrun)⟩

/-- The part of the page of `va` that a window with page-aligned ends does not cut. -/
theorem UserAccessWindow.Contains.page {window : UserAccessWindow}
    (hin : window.Contains ptr len) (hbase : window.base % pageSize = 0)
    (hend : (window.base + window.len) % pageSize = 0) {j : ℕ} (hj : j < len) :
    window.base ≤ pageBase (ptr + j) ∧
      pageBase (ptr + j) + pageSize ≤ window.base + window.len := by
  have hrange := hin.resolve_left (by omega)
  unfold pageBase pageSize at *
  omega

/-- A console write puts out exactly the bytes that the user sees in its range, or it
puts out nothing; no capability, endpoint or queue changes, and nothing fails past the
gates. -/
theorem dispatch_consoleWrite [Build] (args : SyscallArgs)
    (hnumber : SyscallNumber.decode args.number = some .consoleWrite)
    (htranslates : Translates ctx.taskAs ctx.memory) :
    ∃ ret ctx', (dispatch args).run ctx = .ok (.resume ret) ctx' ∧
      ctx'.toIpcCall = ctx.toIpcCall ∧
      (ret.status = okStatus → ctx'.console = ctx.console ++
          userBytes ctx.taskAs ctx.memory (x1 args.args).toNat (x2 args.args).toNat ∧
        ret.x1 = x2 args.args ∧
        ∀ j < (x2 args.args).toNat, Grants ctx.taskAs ctx.memory false ((x1 args.args).toNat + j) ∧
          ctx.userWindow.base ≤ (x1 args.args).toNat + j ∧
          (x1 args.args).toNat + j < ctx.userWindow.base + ctx.userWindow.len ∧
          (ctx.userWindow.base % pageSize = 0 →
            (ctx.userWindow.base + ctx.userWindow.len) % pageSize = 0 →
            ctx.userWindow.base ≤ pageBase ((x1 args.args).toNat + j) ∧
            pageBase ((x1 args.args).toNat + j) + pageSize ≤
              ctx.userWindow.base + ctx.userWindow.len)) ∧
      (ret.status ≠ okStatus → ctx'.console = ctx.console) ∧
      (ret.status = okStatus ↔ ConsoleGates ctx (decodeRequiredCapHandle (x0 args.args))
        (x1 args.args).toNat (x2 args.args).toNat) ∧
      (ConsoleGates ctx (decodeRequiredCapHandle (x0 args.args)) (x1 args.args).toNat
          (x2 args.args).toNat →
        ∃ cursor ctx'', (Prog.loop (fun cursor => cursor.offset < (x2 args.args).toNat)
          (writeChunk (x1 args.args).toNat (x2 args.args).toNat) ((x2 args.args).toNat + 1)
          ⟨0, List.replicate consoleWriteChunk 0⟩).run ctx = .ok cursor ctx'') := by
  have hdispatch : dispatch args = (do
      return .resume (← settle (sysConsoleWrite args.args)) :
        Prog (SyscallContext AS) Empty SyscallEffect) := by
    unfold dispatch
    rw [hnumber]
  rw [hdispatch]
  by_cases hgates : ConsoleGates ctx (decodeRequiredCapHandle (x0 args.args))
      (x1 args.args).toNat (x2 args.args).toNat
  · have hok := sysConsoleWrite_ok htranslates hgates
    refine ⟨_, _, Prog.bind_ok (settle_ok hok), rfl, fun _ => ⟨rfl, rfl, fun j hj => ?_⟩,
      fun hcon => absurd rfl hcon, ⟨fun _ => hgates, fun _ => rfl⟩, fun _ => ?_⟩
    · obtain ⟨_, hcontains, hgrants⟩ := hgates
      have hrange := hcontains.resolve_left (by omega)
      exact ⟨hgrants j hj, by omega, by omega, fun hbase hend => hcontains.page hbase hend hj⟩
    · obtain ⟨cursor, hloop⟩ :=
        writeChunks_run htranslates hgates.contains hgates.grants
      exact ⟨_, _, hloop⟩
  · obtain ⟨err, herr⟩ := sysConsoleWrite_err htranslates hgates
    have hstatus := err.asStatus_ne_ok
    exact ⟨_, _, Prog.bind_ok (settle_err herr), rfl, fun hcon => absurd hcon hstatus,
      fun _ => rfl, ⟨fun hcon => absurd hcon hstatus, fun hcon => absurd hcon hgates⟩,
      fun hcon => absurd hcon hgates⟩

end

/-- One user page, at `0x1000`, in the frame at `0x4000`. -/
@[reducible] def onePageMmu : Mmu Unit where
  translate _ va :=
    if va.val = 0x1000 then
      return (⟨⟨0x4000⟩, rfl⟩, .user)
    else
      Prog.fail .notMapped

/-- A task with the page as its window and a console capability. -/
def onePageContext : SyscallContext Unit where
  epArena := Arena.new
  queues := IpcQueues.new
  table := CapabilityTable.new.installed 0 (rootEntry ⟨.consoleWrite, .debugConsole⟩)
  console := []
  memory := fun a => BitVec.ofNat 8 a
  userWindow := ⟨0x1000, 0x1000⟩
  taskAs := ()
  hasCurrentTask := true

theorem onePage_translates (m : Memory) : @Translates Unit onePageMmu () m := by
  intro va
  by_cases hpage : va.val = 0x1000
  · have hframe : (⟨⟨0x4000⟩, rfl⟩ : PhysFrame).asUsize < directMapEnd := by decide +kernel
    exact Or.inl ⟨_, _, congrFun (congrArg Prog.run (if_pos hpage)) m, hframe⟩
  · exact Or.inr ⟨_, congrFun (congrArg Prog.run (if_neg hpage)) m⟩

theorem onePage_gates : @ConsoleGates Unit onePageMmu onePageContext ⟨0, 0⟩ 0x1004 2 := by
  let _ : Mmu Unit := onePageMmu
  refine ⟨⟨rootEntry ⟨.consoleWrite, .debugConsole⟩, ⟨by decide, rfl, rfl⟩, rfl, by decide⟩,
    Or.inr (by decide), fun j hj => ?_⟩
  have hbase : pageBase (0x1004 + j) = 0x1000 := by
    unfold pageBase pageSize
    omega
  unfold Grants
  rw [hbase]
  exact ⟨⟨⟨0x4000⟩, rfl⟩, .user, rfl, by decide, by decide⟩

/-- Two bytes of the page go out. -/
theorem dispatch_consoleWrite_two : ∃ ret ctx',
    (@dispatch Unit onePageMmu debugBuild ⟨5, #v[0, 0x1004, 2, 0, 0, 0]⟩).run onePageContext =
      .ok (.resume ret) ctx' ∧ ret.status = okStatus ∧ ctx'.console = [4, 5] := by
  let _ : Build := debugBuild
  let _ : Mmu Unit := onePageMmu
  have htranslates : Translates onePageContext.taskAs onePageContext.memory :=
    onePage_translates _
  obtain ⟨ret, ctx', hrun, _, hok, _, hiff, _⟩ :=
    dispatch_consoleWrite ⟨5, #v[0, 0x1004, 2, 0, 0, 0]⟩ rfl htranslates
  have hstatus := hiff.mpr onePage_gates
  have hconsole := (hok hstatus).1
  exact ⟨ret, ctx', hrun, hstatus, hconsole⟩

end Tyrne
