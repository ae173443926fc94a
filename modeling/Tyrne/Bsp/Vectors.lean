import Tyrne.Library.A64

/-!
# The exception vectors

The table of `vectors.s` with the trampolines that its entries branch to. A trampoline saves
registers in a frame on the kernel stack, calls a handler with the address of the frame, and
returns from the exception through the frame; every entry without a handler of its own
ends in `panic_entry`.
-/

namespace Tyrne

open A64

inductive VectorLabel
  | irqCurrElTrampoline
  | syncTrampoline
  | notSvc
  | notSvcHalt
  | unhandledExceptionTrampoline
  | unhandledExceptionHalt
  | unhandledIrqTrampoline
  | unhandledIrqHalt
  deriving DecidableEq, Repr

inductive Handler
  | irqEntry
  | syscallEntry
  | panicEntry
  deriving DecidableEq, Repr

abbrev VectorLine := Line VectorLabel Handler

/-! ## The IRQ trampoline -/

def irqSave : List Instr := [
  .sub .sp .sp 192,
  .stp (.x 0) (.x 1) .sp 0x00,
  .stp (.x 2) (.x 3) .sp 0x10,
  .stp (.x 4) (.x 5) .sp 0x20,
  .stp (.x 6) (.x 7) .sp 0x30,
  .stp (.x 8) (.x 9) .sp 0x40,
  .stp (.x 10) (.x 11) .sp 0x50,
  .stp (.x 12) (.x 13) .sp 0x60,
  .stp (.x 14) (.x 15) .sp 0x70,
  .stp (.x 16) (.x 17) .sp 0x80,
  .stp (.x 18) (.x 30) .sp 0x90,
  .mrs 0 .elrEl1,
  .mrs 1 .spsrEl1,
  .stp (.x 0) (.x 1) .sp 0xA0,
  .mov (.x 0) .sp]

def irqRestore : List Instr := [
  .ldp (.x 0) (.x 1) .sp 0xA0,
  .msr .elrEl1 0,
  .msr .spsrEl1 1,
  .ldp (.x 18) (.x 30) .sp 0x90,
  .ldp (.x 16) (.x 17) .sp 0x80,
  .ldp (.x 14) (.x 15) .sp 0x70,
  .ldp (.x 12) (.x 13) .sp 0x60,
  .ldp (.x 10) (.x 11) .sp 0x50,
  .ldp (.x 8) (.x 9) .sp 0x40,
  .ldp (.x 6) (.x 7) .sp 0x30,
  .ldp (.x 4) (.x 5) .sp 0x20,
  .ldp (.x 2) (.x 3) .sp 0x10,
  .ldp (.x 0) (.x 1) .sp 0x00,
  .add .sp .sp 192]

def irqCurrElTrampoline : List VectorLine :=
  .label .irqCurrElTrampoline ::
  (irqSave.map .op ++
  (.bl .irqEntry ::
  (irqRestore.map .op ++
  [.eret .elrEl1 .spsrEl1])))

/-! ## The synchronous trampoline -/

def syncSave : List Instr := [
  .sub .sp .sp 272,
  .stp (.x 0) (.x 1) .sp 0x00,
  .stp (.x 2) (.x 3) .sp 0x10,
  .stp (.x 4) (.x 5) .sp 0x20,
  .stp (.x 6) (.x 7) .sp 0x30,
  .stp (.x 8) (.x 9) .sp 0x40,
  .stp (.x 10) (.x 11) .sp 0x50,
  .stp (.x 12) (.x 13) .sp 0x60,
  .stp (.x 14) (.x 15) .sp 0x70,
  .stp (.x 16) (.x 17) .sp 0x80,
  .stp (.x 18) (.x 19) .sp 0x90,
  .stp (.x 20) (.x 21) .sp 0xA0,
  .stp (.x 22) (.x 23) .sp 0xB0,
  .stp (.x 24) (.x 25) .sp 0xC0,
  .stp (.x 26) (.x 27) .sp 0xD0,
  .stp (.x 28) (.x 29) .sp 0xE0,
  .mrs 0 .spEl0,
  .stp (.x 30) (.x 0) .sp 0xF0,
  .mrs 0 .elrEl1,
  .mrs 1 .spsrEl1,
  .stp (.x 0) (.x 1) .sp 0x100]

/-- Route on the exception class, bits 26 to 31 of the syndrome. -/
def syncRoute : List Instr := [
  .mrs 0 .esrEl1,
  .lsr 0 0 26,
  .and 0 0 0x3f,
  .cmpImm 0 0x15]

def syncRestore : List Instr := [
  .ldp (.x 0) (.x 1) .sp 0x100,
  .msr .elrEl1 0,
  .msr .spsrEl1 1,
  .ldp (.x 30) (.x 0) .sp 0xF0,
  .msr .spEl0 0,
  .ldp (.x 2) (.x 3) .sp 0x10,
  .ldp (.x 4) (.x 5) .sp 0x20,
  .ldp (.x 6) (.x 7) .sp 0x30,
  .ldp (.x 8) (.x 9) .sp 0x40,
  .ldp (.x 10) (.x 11) .sp 0x50,
  .ldp (.x 12) (.x 13) .sp 0x60,
  .ldp (.x 14) (.x 15) .sp 0x70,
  .ldp (.x 16) (.x 17) .sp 0x80,
  .ldp (.x 18) (.x 19) .sp 0x90,
  .ldp (.x 20) (.x 21) .sp 0xA0,
  .ldp (.x 22) (.x 23) .sp 0xB0,
  .ldp (.x 24) (.x 25) .sp 0xC0,
  .ldp (.x 26) (.x 27) .sp 0xD0,
  .ldp (.x 28) (.x 29) .sp 0xE0,
  .ldp (.x 0) (.x 1) .sp 0x00,
  .add .sp .sp 272]

def syncTrampoline : List VectorLine :=
  .label .syncTrampoline ::
  (syncSave.map .op ++
  (syncRoute.map .op ++
  (.bCond .ne .notSvc ::
  .op (.mov (.x 0) .sp) ::
  .bl .syscallEntry ::
  (syncRestore.map .op ++
  [.eret .elrEl1 .spsrEl1,
  .label .notSvc,
  .op (.movImm 0 0),
  .op (.mrs 1 .esrEl1),
  .bl .panicEntry,
  .label .notSvcHalt,
  .op .wfe,
  .b .notSvcHalt]))))

/-! ## The trampolines that panic -/

def unhandledExceptionTrampoline : List VectorLine := [
  .label .unhandledExceptionTrampoline,
  .op (.sub .sp .sp 16),
  .op (.movImm 0 0),
  .op (.mrs 1 .esrEl1),
  .bl .panicEntry,
  .label .unhandledExceptionHalt,
  .op .wfe,
  .b .unhandledExceptionHalt]

def unhandledIrqTrampoline : List VectorLine := [
  .label .unhandledIrqTrampoline,
  .op (.sub .sp .sp 16),
  .op (.movImm 0 1),
  .op (.mrs 1 .esrEl1),
  .bl .panicEntry,
  .label .unhandledIrqHalt,
  .op .wfe,
  .b .unhandledIrqHalt]

/-- The text behind the table. -/
def trampolines : List VectorLine :=
  irqCurrElTrampoline ++ (syncTrampoline ++
    (unhandledExceptionTrampoline ++ unhandledIrqTrampoline))

/-! ## The table -/

/-- Where an exception comes from, in the order of the table. -/
inductive VectorSource
  | currElSp0
  | currElSpx
  | lowerElAarch64
  | lowerElAarch32
  deriving DecidableEq, Repr

inductive VectorKind
  | sync
  | irq
  | fiq
  | serror
  deriving DecidableEq, Repr

def VectorSource.index : VectorSource → ℕ
  | .currElSp0 => 0
  | .currElSpx => 1
  | .lowerElAarch64 => 2
  | .lowerElAarch32 => 3

def VectorKind.index : VectorKind → ℕ
  | .sync => 0
  | .irq => 1
  | .fiq => 2
  | .serror => 3

/-- The sixteen entries of `tyrne_vectors`, 0x80 bytes apart; each is one branch. -/
def tyrneVectors : List VectorLabel := [
  .unhandledExceptionTrampoline, .unhandledIrqTrampoline,
  .unhandledExceptionTrampoline, .unhandledExceptionTrampoline,
  .syncTrampoline, .irqCurrElTrampoline,
  .unhandledExceptionTrampoline, .unhandledExceptionTrampoline,
  .syncTrampoline, .unhandledIrqTrampoline,
  .unhandledExceptionTrampoline, .unhandledExceptionTrampoline,
  .unhandledExceptionTrampoline, .unhandledIrqTrampoline,
  .unhandledExceptionTrampoline, .unhandledExceptionTrampoline]

/-- The entry that the processor branches to. -/
def vectorEntry (src : VectorSource) (kind : VectorKind) : List VectorLine :=
  ((tyrneVectors[4 * src.index + kind.index]?).map Line.b).toList

/-! ## What the trampolines do -/

variable {ω : Type} {call : Handler → State ω → Option (State ω)} {s s' : State ω} {b : Word}

/-- The state at a vector entry: EL1 with its own stack pointer, which is aligned. -/
structure AtVector (s : State ω) : Prop where
  el : el s.pstate = 1
  spSel : spSel s.pstate = true
  aligned : (s.sps 1).toNat % 16 = 0

theorem AtVector.spIndex (h : AtVector s) : s.spIndex = 1 := by
  unfold State.spIndex
  rw [if_pos h.spSel, h.el]

theorem AtVector.sp (h : AtVector s) : s.sp = s.sps 1 := by
  unfold State.sp
  rw [h.spIndex]

theorem AtVector.congr (h : AtVector s) (hpstate : s'.pstate = s.pstate)
    (hsps : s'.sps 1 = s.sps 1) : AtVector s' := by
  refine ⟨?_, ?_, ?_⟩
  · rw [hpstate, h.el]
  · rw [hpstate, h.spSel]
  · rw [hsps]
    exact h.aligned

theorem AtVector.setX (h : AtVector s) (r : Reg) (w : Word) : AtVector (s.setX r w) :=
  h.congr rfl rfl

theorem AtVector.setSp_sps (h : AtVector s) {w : Word} :
    (s.setSp w).sps = Function.update s.sps 1 w := by
  unfold State.setSp
  rw [h.spIndex]

theorem AtVector.setSp_sps_one (h : AtVector s) {w : Word} : (s.setSp w).sps 1 = w := by
  rw [h.setSp_sps, Function.update_self]

theorem AtVector.push (h : AtVector s) (size : ℕ) (hsize : size % 16 = 0) :
    AtVector (s.setSp (s.sp - BitVec.ofNat 64 size)) := by
  have haligned := h.aligned
  refine ⟨h.el, h.spSel, ?_⟩
  rw [h.setSp_sps_one, h.sp, BitVec.toNat_sub, BitVec.toNat_ofNat]
  omega

theorem AtVector.base (h : AtVector s) : (s.base .sp).toNat % 8 = 0 := by
  have haligned := h.aligned
  show s.sp.toNat % 8 = 0
  rw [h.sp]
  omega

theorem AtVector.load (h : AtVector s) (pairs : Pairs) (hoff : ∀ p ∈ pairs, p.2.2 % 8 = 0) :
    execAll (ldps .sp pairs) s = some (loadAll (s.sps 1) (slots pairs) s) := by
  have hrun := exec_ldps (n := .sp) (fun _ => by rw [h.sp]; exact h.aligned) h.base hoff
    fun r hr => nomatch hr
  rwa [show s.base .sp = s.sps 1 from h.sp] at hrun

theorem AtVector.loadAll (h : AtVector s) {l : List (Operand × ℕ)} : AtVector (loadAll b l s) := by
  have hrest := loadAll_rest (b := b) (l := l) (s := s)
  exact h.congr hrest.pstate (by rw [hrest.sps])

/-! ### Filling the frame -/

/-- The words have been stored in the frame at the stack pointer, by way of `x0` and `x1`. -/
structure Spilled (s : State ω) (words : List (ℕ × Word)) (s' : State ω) : Prop where
  mem : s'.mem = storeAll s.mem (s.sps 1) words
  x : ∀ r, r ≠ 0 → r ≠ 1 → s'.x r = s.x r
  v : s'.v = s.v
  sps : s'.sps = s.sps
  pstate : s'.pstate = s.pstate
  sys : s'.sys = s.sys
  world : s'.world = s.world

namespace Spilled

variable {s₁ : State ω} {words words' : List (ℕ × Word)}

theorem atVector (h : Spilled s words s') (hs : AtVector s) : AtVector s' :=
  hs.congr h.pstate (by rw [h.sps])

theorem trans (h : Spilled s words s₁) (h' : Spilled s₁ words' s') :
    Spilled s (words ++ words') s' where
  mem := by rw [h'.mem, h.mem, h.sps, storeAll_append]
  x r h0 h1 := (h'.x r h0 h1).trans (h.x r h0 h1)
  v := h'.v.trans h.v
  sps := h'.sps.trans h.sps
  pstate := h'.pstate.trans h.pstate
  sys := h'.sys.trans h.sys
  world := h'.world.trans h.world

theorem readSys (h : Spilled s words s') (sr : SysReg) : s'.readSys sr = s.readSys sr := by
  cases sr <;> simp [State.readSys, h.sys, h.sps, h.pstate]

theorem saved (h : Spilled s words s') {l : List (Operand × ℕ)}
    (hl : ∀ p ∈ l, p.1 ≠ .x 0 ∧ p.1 ≠ .x 1) : saved s' l = saved s l := by
  refine List.map_congr_left fun p hp => ?_
  obtain ⟨h0, h1⟩ := hl p hp
  obtain ⟨o, off⟩ := p
  cases o with
  | x r =>
    have hr := h.x r (fun heq => h0 (heq ▸ rfl)) fun heq => h1 (heq ▸ rfl)
    simp [State.read, hr]
  | d r => simp [State.read, h.v]

theorem setX (s : State ω) {r : Reg} (hr : r = 0 ∨ r = 1) (w : Word) :
    Spilled s [] (s.setX r w) := by
  refine ⟨rfl, fun r' h0 h1 => ?_, rfl, rfl, rfl, rfl, rfl⟩
  rcases hr with rfl | rfl
  · simp [State.setX, h0]
  · simp [State.setX, h1]

end Spilled

theorem AtVector.save (h : AtVector s) (pairs : Pairs) (hoff : ∀ p ∈ pairs, p.2.2 % 8 = 0) :
    ∃ s', execAll (stps .sp pairs) s = some s' ∧ Spilled s (saved s (slots pairs)) s' := by
  have hrun := exec_stps (n := .sp) (fun _ => by rw [h.sp]; exact h.aligned) h.base hoff
  rw [show s.base .sp = s.sps 1 from h.sp] at hrun
  exact ⟨_, hrun, rfl, fun _ _ _ => rfl, rfl, rfl, rfl, rfl, rfl⟩

/-- The exception's return address and status go into the frame. -/
theorem AtVector.saveStatus (h : AtVector s) (off : ℕ) (hoff : off % 8 = 0) :
    ∃ s', execAll [.mrs 0 .elrEl1, .mrs 1 .spsrEl1, .stp (.x 0) (.x 1) .sp off] s = some s' ∧
      Spilled s [(off, s.sys .elrEl1), (off + 8, s.sys .spsrEl1)] s' := by
  have hread : Spilled s [] ((s.setX 0 (s.sys .elrEl1)).setX 1 (s.sys .spsrEl1)) :=
    (Spilled.setX s (Or.inl rfl) _).trans (Spilled.setX _ (Or.inr rfl) _)
  obtain ⟨s', hrun, hspilled⟩ := (hread.atVector h).save [(.x 0, .x 1, off)]
    fun p hp => by
      rw [List.mem_singleton.mp hp]
      exact hoff
  exact ⟨s', hrun, hread.trans hspilled⟩

/-! ### The IRQ frame -/

def irqPairs : Pairs := [
  (.x 0, .x 1, 0x00), (.x 2, .x 3, 0x10), (.x 4, .x 5, 0x20), (.x 6, .x 7, 0x30),
  (.x 8, .x 9, 0x40), (.x 10, .x 11, 0x50), (.x 12, .x 13, 0x60), (.x 14, .x 15, 0x70),
  (.x 16, .x 17, 0x80), (.x 18, .x 30, 0x90)]

/-- What the trampoline puts into the frame. -/
def irqFrame (s : State ω) : List (ℕ × Word) :=
  saved s (slots irqPairs) ++ [(0xA0, s.sys .elrEl1), (0xA8, s.sys .spsrEl1)]

theorem irqSave_exec (h : AtVector s) :
    ∃ s', execAll irqSave s = some s' ∧ s'.x 0 = s.sps 1 - 192 ∧
      Spilled (s.setSp (s.sp - 192)) (irqFrame s) s' := by
  have hpush : AtVector (s.setSp (s.sp - 192)) := h.push 192 (by decide)
  obtain ⟨s₁, hrun₁, hsave⟩ := hpush.save irqPairs (by decide)
  have h₁ := hsave.atVector hpush
  obtain ⟨s₂, hrun₂, hstatus⟩ := h₁.saveStatus 0xA0 (by decide)
  have h₂ := hstatus.atVector h₁
  rw [hsave.sys] at hstatus
  have hsp : s₂.sp = s.sps 1 - 192 := by
    rw [h₂.sp, hstatus.sps, hsave.sps, h.setSp_sps_one, h.sp]
  refine ⟨s₂.setX 0 s₂.sp, ?_, ?_, ?_⟩
  · have hsplit : irqSave = [.sub .sp .sp 192] ++ (stps .sp irqPairs ++
        ([.mrs 0 .elrEl1, .mrs 1 .spsrEl1, .stp (.x 0) (.x 1) .sp 0xA0] ++
          [.mov (.x 0) .sp])) := rfl
    rw [hsplit, execAll_append (t := s.setSp (s.sp - 192)) rfl, execAll_append hrun₁,
      execAll_append hrun₂]
    rfl
  · show Function.update s₂.x 0 s₂.sp 0 = _
    rw [Function.update_self, hsp]
  · have hall := (hsave.trans hstatus).trans (Spilled.setX s₂ (Or.inl rfl) s₂.sp)
    rw [List.append_nil] at hall
    exact hall

/-! ### The frame of a system call -/

def syncPairs : Pairs := [
  (.x 0, .x 1, 0x00), (.x 2, .x 3, 0x10), (.x 4, .x 5, 0x20), (.x 6, .x 7, 0x30),
  (.x 8, .x 9, 0x40), (.x 10, .x 11, 0x50), (.x 12, .x 13, 0x60), (.x 14, .x 15, 0x70),
  (.x 16, .x 17, 0x80), (.x 18, .x 19, 0x90), (.x 20, .x 21, 0xA0), (.x 22, .x 23, 0xB0),
  (.x 24, .x 25, 0xC0), (.x 26, .x 27, 0xD0), (.x 28, .x 29, 0xE0)]

/-- What the trampoline puts into the frame. -/
def syncFrame (s : State ω) : List (ℕ × Word) :=
  saved s (slots syncPairs) ++ [(0xF0, s.x 30), (0xF8, s.sps 0)] ++
    [(0x100, s.sys .elrEl1), (0x108, s.sys .spsrEl1)]

theorem syncSave_exec (h : AtVector s) :
    ∃ s', execAll syncSave s = some s' ∧ Spilled (s.setSp (s.sp - 272)) (syncFrame s) s' := by
  have hpush : AtVector (s.setSp (s.sp - 272)) := h.push 272 (by decide)
  obtain ⟨s₁, hrun₁, hsave⟩ := hpush.save syncPairs (by decide)
  have h₁ := hsave.atVector hpush
  have hread := Spilled.setX s₁ (r := 0) (Or.inl rfl) (s₁.sps 0)
  obtain ⟨s₂, hrun₂, hlink⟩ := (hread.atVector h₁).save [(.x 30, .x 0, 0xF0)]
    (by decide)
  have hlink' := hread.trans hlink
  have h₂ := hlink'.atVector h₁
  obtain ⟨s₃, hrun₃, hstatus⟩ := h₂.saveStatus 0x100 (by decide)
  refine ⟨s₃, ?_, ?_⟩
  · have hsplit : syncSave = [.sub .sp .sp 272] ++ (stps .sp syncPairs ++
        ([.mrs 0 .spEl0] ++ (stps .sp [(.x 30, .x 0, 0xF0)] ++
          [.mrs 0 .elrEl1, .mrs 1 .spsrEl1, .stp (.x 0) (.x 1) .sp 0x100]))) := rfl
    rw [hsplit, execAll_append (t := s.setSp (s.sp - 272)) rfl, execAll_append hrun₁,
      execAll_append (t := s₁.setX 0 (s₁.sps 0)) rfl, execAll_append hrun₂, hrun₃]
  · rw [hlink'.sys, hsave.sys] at hstatus
    have hwords : saved (s₁.setX 0 (s₁.sps 0)) (slots [(.x 30, .x 0, 0xF0)]) =
        [(0xF0, s.x 30), (0xF8, s.sps 0)] := by
      have hx : s₁.x 30 = s.x 30 := hsave.x 30 (by decide) (by decide)
      have hsp : s₁.sps 0 = s.sps 0 := by
        rw [hsave.sps, h.setSp_sps]
        rfl
      simp [saved, slots, State.read, State.setX, hx, hsp]
    rw [hwords] at hlink'
    exact (hsave.trans hlink').trans hstatus

/-- The exception class of a syndrome. -/
def exceptionClass (esr : Word) : Word := (esr >>> 26) &&& 0x3f

/-- `SVC` from AArch64. -/
def svc64 : Word := 0x15

theorem syncRoute_exec (s : State ω) : execAll syncRoute s =
    some { s.setX 0 (exceptionClass (s.sys .esrEl1)) with
      pstate := compare s.pstate (exceptionClass (s.sys .esrEl1)) svc64 } := by
  simp [syncRoute, execAll, Instr.exec, State.setX, State.readSys, exceptionClass, svc64]

/-! ### Emptying the frame -/

/-- The exception's return address and status come back, by way of `x0` and `x1`. -/
structure StatusLoaded (s : State ω) (off : ℕ) (s' : State ω) : Prop where
  x : ∀ r, r ≠ 0 → r ≠ 1 → s'.x r = s.x r
  v : s'.v = s.v
  sps : s'.sps = s.sps
  pstate : s'.pstate = s.pstate
  elr : s'.sys .elrEl1 = s.mem (s.sps 1 + BitVec.ofNat 64 off)
  spsr : s'.sys .spsrEl1 = s.mem (s.sps 1 + BitVec.ofNat 64 (off + 8))
  mem : s'.mem = s.mem
  world : s'.world = s.world

theorem AtVector.loadStatus (h : AtVector s) (off : ℕ) (hoff : off % 8 = 0) :
    ∃ s', execAll [.ldp (.x 0) (.x 1) .sp off, .msr .elrEl1 0, .msr .spsrEl1 1] s = some s' ∧
      StatusLoaded s off s' := by
  have hload := h.load [(.x 0, .x 1, off)] fun p hp => by
    rw [List.mem_singleton.mp hp]
    exact hoff
  refine ⟨_, (execAll_append hload).trans rfl, ?_⟩
  refine ⟨fun r h0 h1 => ?_, rfl, rfl, rfl, ?_, ?_, rfl, rfl⟩
  · simp [slots, A64.loadAll, State.write, State.setX, State.writeSys, h0, h1]
  · simp [slots, A64.loadAll, State.write, State.setX, State.writeSys]
  · simp [slots, A64.loadAll, State.write, State.setX, State.writeSys]

def irqRestorePairs : Pairs := [
  (.x 18, .x 30, 0x90), (.x 16, .x 17, 0x80), (.x 14, .x 15, 0x70), (.x 12, .x 13, 0x60),
  (.x 10, .x 11, 0x50), (.x 8, .x 9, 0x40), (.x 6, .x 7, 0x30), (.x 4, .x 5, 0x20),
  (.x 2, .x 3, 0x10), (.x 0, .x 1, 0x00)]

/-- The slot of a general register in the IRQ frame, if it has one. -/
def irqSlot (r : Reg) : Option ℕ :=
  if r.val ≤ 18 then some (8 * r.val) else if r.val = 30 then some 0x98 else none

theorem irqRestorePairs_slots : HasSlots (slots irqRestorePairs) irqSlot :=
  ⟨by decide, by decide⟩

/-- The registers have come from the frame at the stack pointer, which is given up. -/
structure Unwound (s : State ω) (slot : Reg → Option ℕ) (status size : ℕ) (s' : State ω) :
    Prop where
  x : ∀ r, s'.x r = match slot r with
    | some off => s.mem (s.sps 1 + BitVec.ofNat 64 off)
    | none => s.x r
  v : s'.v = s.v
  sp : s'.sps 1 = s.sps 1 + BitVec.ofNat 64 size
  pstate : s'.pstate = s.pstate
  elr : s'.sys .elrEl1 = s.mem (s.sps 1 + BitVec.ofNat 64 status)
  spsr : s'.sys .spsrEl1 = s.mem (s.sps 1 + BitVec.ofNat 64 (status + 8))
  mem : s'.mem = s.mem
  world : s'.world = s.world

theorem irqRestore_exec (h : AtVector s) :
    ∃ s', execAll irqRestore s = some s' ∧ Unwound s irqSlot 0xA0 192 s' ∧
      s'.sps 0 = s.sps 0 := by
  obtain ⟨s₁, hrun₁, hstatus⟩ := h.loadStatus 0xA0 (by decide)
  have h₁ : AtVector s₁ := h.congr hstatus.pstate (by rw [hstatus.sps])
  have hrun₂ := h₁.load irqRestorePairs (by decide)
  have hrest := loadAll_rest (b := s₁.sps 1) (l := slots irqRestorePairs) (s := s₁)
  have hx := loadAll_x (b := s₁.sps 1) (s := s₁) irqRestorePairs_slots
  have hv := loadAll_v (b := s₁.sps 1) (s := s₁) (l := slots irqRestorePairs) (by decide)
  have h₂ := h₁.loadAll (b := s₁.sps 1) (l := slots irqRestorePairs)
  generalize loadAll (s₁.sps 1) (slots irqRestorePairs) s₁ = s₂ at *
  have hsps : (s₂.setSp (s₂.sp + 192)).sps = Function.update s.sps 1 (s.sps 1 + 192) := by
    rw [h₂.setSp_sps, h₂.sp, hrest.sps, hstatus.sps]
  refine ⟨s₂.setSp (s₂.sp + 192), ?_, ⟨fun r => ?_, ?_, ?_, ?_, ?_, ?_, ?_, ?_⟩, ?_⟩
  · have hsplit : irqRestore = [.ldp (.x 0) (.x 1) .sp 0xA0, .msr .elrEl1 0, .msr .spsrEl1 1] ++
        (ldps .sp irqRestorePairs ++ [.add .sp .sp 192]) := rfl
    rw [hsplit, execAll_append hrun₁, execAll_append hrun₂]
    rfl
  · refine (hx r).trans ?_
    rw [hstatus.mem, hstatus.sps]
    cases hslot : irqSlot r with
    | some off => rfl
    | none =>
      refine hstatus.x r ?_ ?_
      · rintro rfl
        cases hslot
      · rintro rfl
        cases hslot
  · exact hv.trans hstatus.v
  · rw [hsps]
    rfl
  · exact hrest.pstate.trans hstatus.pstate
  · exact (congrFun hrest.sys _).trans hstatus.elr
  · exact (congrFun hrest.sys _).trans hstatus.spsr
  · exact hrest.mem.trans hstatus.mem
  · exact hrest.world.trans hstatus.world
  · rw [hsps]
    rfl

def syncRestorePairs : Pairs := [
  (.x 2, .x 3, 0x10), (.x 4, .x 5, 0x20), (.x 6, .x 7, 0x30), (.x 8, .x 9, 0x40),
  (.x 10, .x 11, 0x50), (.x 12, .x 13, 0x60), (.x 14, .x 15, 0x70), (.x 16, .x 17, 0x80),
  (.x 18, .x 19, 0x90), (.x 20, .x 21, 0xA0), (.x 22, .x 23, 0xB0), (.x 24, .x 25, 0xC0),
  (.x 26, .x 27, 0xD0), (.x 28, .x 29, 0xE0), (.x 0, .x 1, 0x00)]

/-- All general registers have their slots, in order. -/
def syncSlot (r : Reg) : Option ℕ := some (8 * r.val)

theorem syncRestorePairs_slots :
    HasSlots (slots syncRestorePairs) fun r => if r = 30 then none else syncSlot r :=
  ⟨by decide, by decide⟩

theorem syncRestore_exec (h : AtVector s) :
    ∃ s', execAll syncRestore s = some s' ∧ Unwound s syncSlot 0x100 272 s' ∧
      s'.sps 0 = s.mem (s.sps 1 + 0xF8) := by
  obtain ⟨s₁, hrun₁, hstatus⟩ := h.loadStatus 0x100 (by decide)
  have h₁ : AtVector s₁ := h.congr hstatus.pstate (by rw [hstatus.sps])
  have hrun₂ := h₁.load [(.x 30, .x 0, 0xF0)] (by decide)
  -- `x30` and the stack pointer of EL0
  obtain ⟨s₂, hs₂⟩ : ∃ s₂, s₂ = (loadAll (s₁.sps 1) (slots [(.x 30, .x 0, 0xF0)]) s₁).writeSys
      .spEl0 (s₁.mem (s₁.sps 1 + 0xF8)) := ⟨_, rfl⟩
  have hrun₃ : execAll [.msr .spEl0 0]
      (loadAll (s₁.sps 1) (slots [(.x 30, .x 0, 0xF0)]) s₁) = some s₂ := by
    rw [hs₂]
    simp [execAll, Instr.exec, slots, A64.loadAll, State.write, State.setX]
  have hsps₂ : s₂.sps = Function.update s₁.sps 0 (s₁.mem (s₁.sps 1 + 0xF8)) := by rw [hs₂]; rfl
  have h₂ : AtVector s₂ := h₁.congr (by rw [hs₂]; rfl) (by rw [hsps₂]; rfl)
  have hx₂ : s₂.x 30 = s₁.mem (s₁.sps 1 + 0xF0) := by
    rw [hs₂]
    simp [slots, A64.loadAll, State.write, State.setX, State.writeSys]
  have hmem₂ : s₂.mem = s₁.mem := by rw [hs₂]; rfl
  have hsys₂ : s₂.sys = s₁.sys := by rw [hs₂]; rfl
  have hrun₄ := h₂.load syncRestorePairs (by decide)
  have hrest := loadAll_rest (b := s₂.sps 1) (l := slots syncRestorePairs) (s := s₂)
  have hx := loadAll_x (b := s₂.sps 1) (s := s₂) syncRestorePairs_slots
  have hv := loadAll_v (b := s₂.sps 1) (s := s₂) (l := slots syncRestorePairs) (by decide)
  have h₃ := h₂.loadAll (b := s₂.sps 1) (l := slots syncRestorePairs)
  generalize loadAll (s₂.sps 1) (slots syncRestorePairs) s₂ = s₃ at *
  have hsp₂ : s₂.sps 1 = s.sps 1 := by
    rw [hsps₂, hstatus.sps]
    rfl
  have hsps : (s₃.setSp (s₃.sp + 272)).sps =
      Function.update (Function.update s.sps 0 (s.mem (s.sps 1 + 0xF8))) 1 (s.sps 1 + 272) := by
    rw [h₃.setSp_sps, h₃.sp, hrest.sps, hsps₂, hstatus.sps, hstatus.mem]
    rfl
  refine ⟨s₃.setSp (s₃.sp + 272), ?_, ⟨fun r => ?_, ?_, ?_, ?_, ?_, ?_, ?_, ?_⟩, ?_⟩
  · have hsplit : syncRestore =
        [.ldp (.x 0) (.x 1) .sp 0x100, .msr .elrEl1 0, .msr .spsrEl1 1] ++
          (ldps .sp [(.x 30, .x 0, 0xF0)] ++ ([.msr .spEl0 0] ++
            (ldps .sp syncRestorePairs ++ [.add .sp .sp 272]))) := rfl
    rw [hsplit, execAll_append hrun₁, execAll_append hrun₂, execAll_append hrun₃,
      execAll_append hrun₄]
    rfl
  · refine (hx r).trans ?_
    by_cases hr : r = 30
    · subst hr
      exact hx₂.trans (by rw [hstatus.mem, hstatus.sps]; rfl)
    · rw [if_neg hr, hmem₂, hstatus.mem, hsp₂]
      rfl
  · exact hv.trans ((by rw [hs₂]; rfl : s₂.v = s₁.v).trans hstatus.v)
  · rw [hsps]
    rfl
  · exact hrest.pstate.trans ((by rw [hs₂]; rfl : s₂.pstate = s₁.pstate).trans hstatus.pstate)
  · exact (congrFun (hrest.sys.trans hsys₂) _).trans hstatus.elr
  · exact (congrFun (hrest.sys.trans hsys₂) _).trans hstatus.spsr
  · exact (hrest.mem.trans hmem₂).trans hstatus.mem
  · exact hrest.world.trans ((by rw [hs₂]; rfl : s₂.world = s₁.world).trans hstatus.world)
  · rw [hsps]
    rfl

end Tyrne
