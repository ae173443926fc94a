import Mathlib.Tactic.FinCases
import Tyrne.Bsp.Alarm
import Tyrne.Bsp.Runs
import Tyrne.Bsp.Syscall
import Tyrne.Bsp.Vectors
import Tyrne.Bsp.Wakeup

/-!
# Exceptions from end to end

The processor enters a vector, the trampoline saves the interrupted context, the handler runs,
and the context comes back. The handlers are the model's own `syscallEntry` and `irqEntry`;
as compiled functions they may leave anything in the registers that the procedure call
standard does not bind and in memory outside the frame.
-/

namespace Tyrne

open A64

variable {AS : Type}

/-- What the handlers work on, beside registers and stack. -/
structure Board (AS : Type) where
  system : System AS
  core : IrqCore

abbrev Processor (AS : Type) := State (Board AS)

/-! ## Entry -/

/-- Where an exception from the state comes from. -/
def vectorSource (s : Processor AS) : VectorSource :=
  if el s.pstate = 0 then
    if s.pstate.getLsbD 4 then .lowerElAarch32 else .lowerElAarch64
  else if spSel s.pstate then .currElSpx else .currElSp0

/-- The exceptions, with the syndrome of those that have one. -/
inductive Exception
  | sync (esr : Word)
  | irq
  | fiq
  | serror (esr : Word)
  deriving DecidableEq, Repr

namespace Exception

def kind : Exception → VectorKind
  | .sync _ => .sync
  | .irq => .irq
  | .fiq => .fiq
  | .serror _ => .serror

def esr : Exception → Option Word
  | .sync esr => some esr
  | .irq => none
  | .fiq => none
  | .serror esr => some esr

end Exception

/-! ## The handlers -/

inductive PanicClass
  | generic
  | unhandledIrqMode
  deriving DecidableEq, Repr

namespace PanicClass

def fromU64 (raw : Word) : PanicClass := if raw = 1 then .unhandledIrqMode else .generic

end PanicClass

/-- The number and the arguments of a system call, read from the frame. -/
def frameArgs (mem : Word → Word) (frame : Word) : SyscallArgs :=
  ⟨mem (frame + 0x40), #v[mem (frame + 0x00), mem (frame + 0x08), mem (frame + 0x10),
    mem (frame + 0x18), mem (frame + 0x20), mem (frame + 0x28)]⟩

/-- Where the status and the payload of a system call go. -/
def returnWords (ret : SyscallReturn) : List (ℕ × Word) := [
  (0x00, ret.status), (0x08, ret.payload.get 0), (0x10, ret.payload.get 1),
  (0x18, ret.payload.get 2), (0x20, ret.payload.get 3), (0x28, ret.payload.get 4),
  (0x30, ret.payload.get 5), (0x38, ret.payload.get 6)]

/-- What a system call writes to the frame when it comes back. -/
def replyWords : SyscallReply → Option (List (ℕ × Word))
  | .resumed ret => some (returnWords ret)
  | .yielded => some [(0x00, okStatus)]
  | .switched => none

/-- The words of the frame at `frame`. -/
def InTrapFrame (frame : Word) (size : ℕ) (a : Word) : Prop := (a - frame).toNat < size

instance (frame : Word) (size : ℕ) : DecidablePred (InTrapFrame frame size) :=
  fun _ => inferInstanceAs (Decidable (_ < _))

/-- The core as the running code sees it: `DAIF` is part of the status. -/
def irqCoreAt (s : Processor AS) : IrqCore :=
  { s.world.core with daif := s.pstate &&& QemuVirtCpu.daifBits }

/-- The handlers. One that panics, or that leaves its frame by a switch, does not come back
here. -/
def handlers [Build] [Mmu AS] (scratch : Processor AS → Scratch) :
    Handler → Processor AS → Option (Processor AS)
  | .irqEntry, s =>
    match (irqEntry : IrqM Empty Unit).run (irqCoreAt s) with
    | .ok () core =>
      some (s.comesBack (scratch s) (InTrapFrame (s.x 0) 192) { s.world with core })
    | _ => none
  | .syscallEntry, s =>
    match (System.syscallEntry (frameArgs s.mem (s.x 0))).run s.world.system with
    | .ok reply system => (replyWords reply).map fun words =>
      let s' := s.comesBack (scratch s) (InTrapFrame (s.x 0) 272) { s.world with system }
      s'.setMem (storeAll s'.mem (s.x 0) words)
    | _ => none
  | .panicEntry, _ => none

/-! ## Entering the vector -/

section Entry

variable {s : Processor AS} {pc : Word} {e : Exception}

/-- The exception is taken to EL1. -/
def takes (s : Processor AS) (pc : Word) (e : Exception) : Processor AS :=
  s.takeException pc e.esr

theorem takes_atVector (pc : Word) (e : Exception) (haligned : (s.sps 1).toNat % 16 = 0) :
    AtVector (takes s pc e) where
  el := el_exceptionStatus
  spSel := spSel_exceptionStatus
  aligned := haligned

/-- The trampoline that a vector branches to. -/
def trampolineOf (src : VectorSource) (kind : VectorKind) : VectorLabel :=
  match kind, src with
  | .sync, .currElSpx => .syncTrampoline
  | .sync, .lowerElAarch64 => .syncTrampoline
  | .irq, .currElSpx => .irqCurrElTrampoline
  | .irq, _ => .unhandledIrqTrampoline
  | _, _ => .unhandledExceptionTrampoline

/-- The sixteen branches of the table. -/
theorem vectorEntry_eq (src : VectorSource) (kind : VectorKind) :
    vectorEntry src kind = [.b (trampolineOf src kind)] := by
  cases src <;> cases kind <;> rfl

variable {call : Handler → Processor AS → Option (Processor AS)}

theorem entry_leads {src : VectorSource} {kind : VectorKind}
    {c : Config VectorLabel Handler (Board AS)}
    (h : Leads trampolines call (.at (after trampolines (trampolineOf src kind)) s) c) :
    Leads trampolines call (.at (vectorEntry src kind) s) c := by
  rw [vectorEntry_eq]
  exact (Leads.b _).trans h

end Entry

/-! ## Frames -/

/-- The words of the frame at `b` are the given ones, from the offset `low` on. -/
def FrameKept (words : List (ℕ × Word)) (b : Word) (low : ℕ) (mem : Word → Word) : Prop :=
  ∀ off w, (off, w) ∈ words → low ≤ off → mem (b + BitVec.ofNat 64 off) = w

/-- The offsets of a frame of the given size, which do not wrap around. -/
def FrameOffsets (words : List (ℕ × Word)) (size : ℕ) : Prop :=
  (words.map Prod.fst).Nodup ∧ ∀ k ∈ words.map Prod.fst, k < size

theorem frameKept_saved {words : List (ℕ × Word)} {size : ℕ} (hwords : FrameOffsets words size)
    (hsize : size < 2 ^ 64) (m : Word → Word) (b : Word) :
    FrameKept words b 0 (storeAll m b words) := by
  intro off w hmem _
  exact storeAll_slot hwords.1
    (fun p hp => (hwords.2 _ (List.mem_map_of_mem hp)).trans hsize) hmem

/-! ## The synchronous trampoline -/

section Sync

variable {s t : Processor AS} {call : Handler → Processor AS → Option (Processor AS)}

theorem mem_syncFrame_x (s : Processor AS) (r : Reg) : (8 * r.val, s.x r) ∈ syncFrame s := by
  fin_cases r <;> simp [syncFrame, saved, slots, syncPairs, State.read]

theorem syncFrame_offsets (s : Processor AS) : FrameOffsets (syncFrame s) 272 := by
  have hfst : (syncFrame s).map Prod.fst = [0, 8, 16, 24, 32, 40, 48, 56, 64, 72, 80, 88, 96, 104,
    112, 120, 128, 136, 144, 152, 160, 168, 176, 184, 192, 200, 208, 216, 224, 232, 240, 248, 256,
    264] := rfl
  unfold FrameOffsets
  rw [hfst]
  decide

/-- The arguments of the call come from the interrupted registers. -/
theorem FrameKept.args {b : Word} {mem : Word → Word} (h : FrameKept (syncFrame s) b 0 mem) :
    frameArgs mem b = ⟨s.x 8, #v[s.x 0, s.x 1, s.x 2, s.x 3, s.x 4, s.x 5]⟩ := by
  have hword : ∀ r : Reg, mem (b + BitVec.ofNat 64 (8 * r.val)) = s.x r :=
    fun r => h _ _ (mem_syncFrame_x s r) (Nat.zero_le _)
  have h0 := hword 0
  have h1 := hword 1
  have h2 := hword 2
  have h3 := hword 3
  have h4 := hword 4
  have h5 := hword 5
  have h8 := hword 8
  simp only [frameArgs]
  simp at h0 h1 h2 h3 h4 h5 h8
  simp [h0, h1, h2, h3, h4, h5, h8]

/-- What is left of the listing after the call of `syscall_entry`. -/
def syncReturn : List VectorLine :=
  syncRestore.map .op ++ (.eret .elrEl1 .spsrEl1 ::
    (.label .notSvc :: .op (.movImm 0 0) :: .op (.mrs 1 .esrEl1) :: .bl .panicEntry ::
      .label .notSvcHalt :: .op .wfe :: .b .notSvcHalt ::
        (unhandledExceptionTrampoline ++ unhandledIrqTrampoline)))

/-- Whenever control is at the return point of a system call with the frame in place, however
it got there, the exception returns to the saved context: `x0` to `x7` are those of the frame
and all else is as it was. -/
theorem syncReturn_leads (call : Handler → Processor AS → Option (Processor AS))
    (ht : AtVector t) (hframe : FrameKept (syncFrame s) (t.sps 1) 64 t.mem) :
    ∃ s', Leads trampolines call (.at syncReturn t)
        (.exit (.goto (s.sys .elrEl1) s')) ∧
      (∀ r, s'.x r = if r.val < 8 then t.mem (t.sps 1 + BitVec.ofNat 64 (8 * r.val)) else s.x r) ∧
      s'.sps 0 = s.sps 0 ∧ s'.sps 1 = t.sps 1 + 272 ∧ s'.pstate = s.sys .spsrEl1 ∧
      s'.v = t.v ∧ s'.world = t.world := by
  obtain ⟨s₁, hrun, hunwound, hspEl0⟩ := syncRestore_exec ht
  have helr : s₁.sys .elrEl1 = s.sys .elrEl1 :=
    hunwound.elr.trans (hframe 0x100 _ (by simp [syncFrame]) (by decide))
  have hspsr : s₁.sys .spsrEl1 = s.sys .spsrEl1 :=
    hunwound.spsr.trans (hframe 0x108 _ (by simp [syncFrame]) (by decide))
  have hexit : Leads trampolines call (.at syncReturn t)
      (.exit (.goto (s₁.readSys .elrEl1) (s₁.returned .spsrEl1))) :=
    (Leads.block hrun).trans (Leads.eret ..)
  have hpc : s₁.readSys .elrEl1 = s.sys .elrEl1 := helr
  rw [hpc] at hexit
  refine ⟨_, hexit, fun r => ?_, ?_, hunwound.sp, hspsr, hunwound.v, hunwound.world⟩
  · have hx := hunwound.x r
    show s₁.x r = _
    split
    · exact hx
    · next hlow =>
      refine hx.trans (hframe _ _ (mem_syncFrame_x s r) (by omega))
  · exact hspEl0.trans (hframe 0xF8 _ (by simp [syncFrame]) (by decide))

variable {pc esr : Word}

/-- The trampoline saves everything and gets as far as its test. -/
theorem sync_route (call : Handler → Processor AS → Option (Processor AS)) (pc esr : Word)
    (haligned : (s.sps 1).toNat % 16 = 0) :
    ∃ t, Leads trampolines call
        (.at (after trampolines .syncTrampoline) (takes s pc (.sync esr)))
        (.at (.bCond .ne .notSvc :: .op (.mov (.x 0) .sp) :: .bl .syscallEntry :: syncReturn) t) ∧
      AtVector t ∧ zero t.pstate = decide (exceptionClass esr = svc64) ∧
      t.sps 1 = s.sps 1 - 272 ∧ FrameKept (syncFrame (takes s pc (.sync esr))) (t.sps 1) 0 t.mem ∧
      t.sys .esrEl1 = esr ∧ t.v = s.v ∧ t.world = s.world := by
  have hvector := takes_atVector pc (.sync esr) haligned
  obtain ⟨s₁, hsave, hspilled⟩ := syncSave_exec hvector
  have h₁ : AtVector s₁ :=
    hspilled.atVector (hvector.push 272 (by decide))
  have hsp : s₁.sps 1 = s.sps 1 - 272 := by
    rw [hspilled.sps, hvector.setSp_sps_one, hvector.sp]
    rfl
  have hesr : s₁.sys .esrEl1 = esr := by
    rw [hspilled.sys]
    rfl
  have hroute := syncRoute_exec s₁
  rw [hesr] at hroute
  refine ⟨_, (Leads.block hsave).trans (Leads.block hroute), ?_, zero_compare, hsp, ?_, hesr,
    hspilled.v, hspilled.world⟩
  · refine ⟨el_compare.trans h₁.el, spSel_compare.trans h₁.spSel, h₁.aligned⟩
  · have hmem : s₁.mem = storeAll (takes s pc (.sync esr)).mem (s₁.sps 1)
        (syncFrame (takes s pc (.sync esr))) := by
      rw [hspilled.mem, hspilled.sps]
      rfl
    show FrameKept _ (s₁.sps 1) 0 s₁.mem
    rw [hmem]
    exact frameKept_saved (syncFrame_offsets _) (by decide) _ _

/-- For a system call the handler gets the frame. -/
theorem sync_call (call : Handler → Processor AS → Option (Processor AS)) (pc : Word)
    (haligned : (s.sps 1).toNat % 16 = 0) (hclass : exceptionClass esr = svc64) :
    ∃ t, Leads trampolines call
        (.at (after trampolines .syncTrampoline) (takes s pc (.sync esr)))
        (.at (.bl .syscallEntry :: syncReturn) t) ∧
      AtVector t ∧ t.x 0 = t.sps 1 ∧ t.sps 1 = s.sps 1 - 272 ∧
      FrameKept (syncFrame (takes s pc (.sync esr))) (t.sps 1) 0 t.mem ∧ t.v = s.v ∧
      t.world = s.world := by
  obtain ⟨t, hreach, ht, hzero, hsp, hframe, -, hv, hworld⟩ :=
    sync_route call pc esr haligned
  have hnot : Cond.holds t.pstate .ne = false := by
    simp [Cond.holds, hzero, hclass]
  refine ⟨t.setX 0 t.sp, ?_, ht.setX 0 _, ?_, hsp, hframe, hv, hworld⟩
  · exact hreach.trans ((Leads.notTaken _ hnot).trans
      (Leads.block (l := [.mov (.x 0) .sp]) rfl))
  · show Function.update t.x 0 t.sp 0 = t.sps 1
    rw [Function.update_self, ht.sp]

/-- Every other synchronous exception ends in `panic_entry`. -/
theorem sync_other (pc : Word) (hnoReturn : ∀ t, call .panicEntry t = none)
    (haligned : (s.sps 1).toNat % 16 = 0) (hclass : exceptionClass esr ≠ svc64) :
    ∃ t, Leads trampolines call
        (.at (after trampolines .syncTrampoline) (takes s pc (.sync esr)))
        (.exit (.noReturn .panicEntry t)) ∧
      t.x 0 = 0 ∧ t.x 1 = esr ∧ t.world = s.world := by
  obtain ⟨t, hreach, -, hzero, -, -, hesr, -, hworld⟩ :=
    sync_route call pc esr haligned
  have htaken : Cond.holds t.pstate .ne = true := by
    simp [Cond.holds, hzero, hclass]
  refine ⟨(t.setX 0 0).setX 1 esr, ?_, rfl, rfl, hworld⟩
  refine hreach.trans ((Leads.taken _ htaken).trans ?_)
  refine (Leads.block (l := [.movImm 0 0, .mrs 1 .esrEl1]) ?_).trans
    (Leads.bl_noReturn (hnoReturn _))
  simp [execAll, Instr.exec, State.readSys, State.setX, hesr]

end Sync

/-! ## The trampolines that panic -/

section Panics

variable {s : Processor AS} {call : Handler → Processor AS → Option (Processor AS)} {pc : Word}
  {e : Exception}

theorem unhandled_leads (hnoReturn : ∀ t, call .panicEntry t = none) {l : VectorLabel}
    (hl : l = .unhandledExceptionTrampoline ∨ l = .unhandledIrqTrampoline) :
    ∃ t, Leads trampolines call (.at (after trampolines l) s)
        (.exit (.noReturn .panicEntry t)) ∧
      t.x 0 = (if l = .unhandledIrqTrampoline then 1 else 0) ∧ t.x 1 = s.sys .esrEl1 ∧
      t.world = s.world := by
  rcases hl with rfl | rfl
  · refine ⟨_, (Leads.block (l := [.sub .sp .sp 16, .movImm 0 0, .mrs 1 .esrEl1]) rfl).trans
      (Leads.bl_noReturn (hnoReturn _)), rfl, rfl, rfl⟩
  · refine ⟨_, (Leads.block (l := [.sub .sp .sp 16, .movImm 0 1, .mrs 1 .esrEl1]) rfl).trans
      (Leads.bl_noReturn (hnoReturn _)), rfl, rfl, rfl⟩

end Panics

/-! ## Calls of the handlers -/

section Handlers

variable {t : Processor AS} {k : Scratch} {b : Word} {size : ℕ} {w : Board AS}

theorem comesBack_frame {kept : Word → Prop} [DecidablePred kept] {a : Word} (ha : kept a) :
    (t.comesBack k kept w).mem a = t.mem a := if_pos ha

theorem inTrapFrame_slot {off : ℕ} (hoff : off < size) (hsize : size < 2 ^ 64) :
    InTrapFrame b size (b + BitVec.ofNat 64 off) := by
  unfold InTrapFrame
  rw [add_sub_cancel_left, BitVec.toNat_ofNat, Nat.mod_eq_of_lt (hoff.trans hsize)]
  exact hoff

theorem comesBack_atVector {kept : Word → Prop} [DecidablePred kept] (ht : AtVector t) :
    AtVector (t.comesBack k kept w) :=
  ⟨el_comesBack.trans ht.el, spSel_comesBack.trans ht.spSel, ht.aligned⟩

/-- The low halves of `v8` to `v15` come back. -/
theorem comesBack_low_half {kept : Word → Prop} [DecidablePred kept] {r : VReg}
    (hr : CalleeSaved (.d r)) :
    ((t.comesBack k kept w).v r).setWidth 64 = (t.v r).setWidth 64 := by
  have hv : (t.comesBack k kept w).v r =
      (k.v r).extractLsb' 64 64 ++ (t.v r).setWidth 64 := if_pos hr
  rw [hv]
  ext i hi
  rw [BitVec.getElem_setWidth]
  refine (BitVec.getLsbD_append ..).trans ?_
  simp [hi]

/-- What a reply puts in the register, if anything. -/
def replyRegister : SyscallReply → Reg → Option Word
  | .resumed ret, r =>
    if r = 0 then some ret.status
    else if h : r.val - 1 < 7 then some ret.payload[r.val - 1] else none
  | .yielded, r => if r = 0 then some okStatus else none
  | .switched, _ => none

/-- The registers from `x8` on are not part of a reply. -/
theorem replyRegister_high (reply : SyscallReply) {r : Reg} (hr : ¬ r.val < 8) :
    replyRegister reply r = none := by
  have h0 : r ≠ 0 := fun h => hr (by rw [h]; decide)
  cases reply with
  | resumed ret => simp only [replyRegister, if_neg h0, dif_neg (show ¬ r.val - 1 < 7 by omega)]
  | yielded => simp only [replyRegister, if_neg h0]
  | switched => rfl

/-- A reply goes into the first eight slots. -/
theorem replyWords_low {reply : SyscallReply} {words : List (ℕ × Word)}
    (hwords : replyWords reply = some words) : ∀ p ∈ words, p.1 < 64 := by
  cases reply with
  | resumed ret =>
    cases hwords
    simp [returnWords]
  | yielded =>
    cases hwords
    simp
  | switched => cases hwords

/-- The frame after the reply is written. -/
theorem storeAll_reply {reply : SyscallReply} {words : List (ℕ × Word)} {m : Word → Word}
    (hwords : replyWords reply = some words) (r : Reg) :
    storeAll m b words (b + BitVec.ofNat 64 (8 * r.val)) =
      (replyRegister reply r).getD (m (b + BitVec.ofNat 64 (8 * r.val))) := by
  have hother : ∀ l : List (ℕ × Word), (∀ p ∈ l, p.1 < 2 ^ 64 ∧ p.1 ≠ 8 * r.val) →
      storeAll m b l (b + BitVec.ofNat 64 (8 * r.val)) = m (b + BitVec.ofNat 64 (8 * r.val)) := by
    intro l hl
    refine storeAll_other fun p hp heq => ?_
    obtain ⟨hlt, hne⟩ := hl p hp
    exact hne (slot_injective (by omega) hlt heq).symm
  cases reply with
  | switched => cases hwords
  | yielded =>
    cases hwords
    by_cases hr : r = 0
    · subst hr
      exact (storeAll_slot (by decide) (by simp) (List.mem_singleton.mpr rfl)).trans rfl
    · simp only [replyRegister, if_neg hr, Option.getD_none]
      refine hother _ fun p hp => ?_
      rw [List.mem_singleton.mp hp]
      exact ⟨by decide, fun h => hr (Fin.ext (by omega))⟩
  | resumed ret =>
    cases hwords
    by_cases hr : r.val < 8
    · have hslot : ∀ w, (8 * r.val, w) ∈ returnWords ret →
          storeAll m b (returnWords ret) (b + BitVec.ofNat 64 (8 * r.val)) = w := fun w hw =>
        storeAll_slot (by simp [returnWords]) (by simp [returnWords]) hw
      apply hslot
      obtain ⟨r, hlt⟩ := r
      interval_cases r <;> simp [returnWords, replyRegister, Vector.get]
    · rw [replyRegister_high _ hr, Option.getD_none]
      refine hother _ fun p hp => ?_
      simp only [returnWords, List.mem_cons, List.not_mem_nil, or_false] at hp
      rcases hp with rfl | rfl | rfl | rfl | rfl | rfl | rfl | rfl <;>
        exact ⟨by dsimp only; omega, by dsimp only; omega⟩

end Handlers

/-! ## System calls -/

section SystemCalls

variable [Build] [Mmu AS] {s : Processor AS} {pc esr : Word} {reply : SyscallReply}
  {system : System AS}

/-- The frame of a system call when its handler comes back. -/
theorem syscallEntry_call (scratch : Processor AS → Scratch) {u t : Processor AS}
    (ht : AtVector t) (hx : t.x 0 = t.sps 1) (hframe : FrameKept (syncFrame u) (t.sps 1) 0 t.mem)
    (hrun : (System.syscallEntry (frameArgs t.mem (t.x 0))).run t.world.system = .ok reply system)
    (hback : reply ≠ .switched) :
    ∃ t', handlers scratch .syscallEntry t = some t' ∧ AtVector t' ∧ t'.sps 1 = t.sps 1 ∧
      FrameKept (syncFrame u) (t.sps 1) 64 t'.mem ∧
      (∀ r : Reg, r.val < 8 → t'.mem (t.sps 1 + BitVec.ofNat 64 (8 * r.val)) =
        (replyRegister reply r).getD (u.x r)) ∧
      t'.world = { t.world with system } := by
  obtain ⟨words, hwords⟩ : ∃ words, replyWords reply = some words := by
    cases reply with
    | resumed ret => exact ⟨_, rfl⟩
    | yielded => exact ⟨_, rfl⟩
    | switched => exact absurd rfl hback
  have hcall : handlers scratch .syscallEntry t = some ((t.comesBack (scratch t)
      (InTrapFrame (t.x 0) 272) { t.world with system }).setMem
        (storeAll (t.comesBack (scratch t) (InTrapFrame (t.x 0) 272)
          { t.world with system }).mem (t.x 0) words)) := by
    simp only [handlers, hrun, hwords]
    rfl
  have hvector : AtVector (t.comesBack (scratch t) (InTrapFrame (t.x 0) 272)
      { t.world with system }) := comesBack_atVector ht
  refine ⟨_, hcall, hvector.congr rfl rfl, rfl, ?_, fun r hr => ?_, rfl⟩
  · intro off w hmem hoff
    have hbound : off < 272 := (syncFrame_offsets u).2 _ (List.mem_map_of_mem hmem)
    have hother : ∀ p ∈ words, t.sps 1 + BitVec.ofNat 64 off ≠ t.sps 1 + BitVec.ofNat 64 p.1 := by
      intro p hp heq
      have hlow := replyWords_low hwords p hp
      have hsame := slot_injective (by omega) (by omega) heq
      omega
    show storeAll _ (t.x 0) words _ = _
    rw [hx, storeAll_other hother, comesBack_frame (inTrapFrame_slot hbound (by decide)),
      hframe _ _ hmem (Nat.zero_le _)]
  · show storeAll _ (t.x 0) words _ = _
    rw [hx, storeAll_reply hwords r, comesBack_frame (inTrapFrame_slot (by omega) (by decide)),
      hframe _ _ (mem_syncFrame_x u r) (Nat.zero_le _)]

/-- The task of the call that left its handler in `t` runs again, in `t'`: its frame is as it was,
with success for a status. -/
structure Resumes (t t' : Processor AS) : Prop where
  atVector : AtVector t'
  sp : t'.sps 1 = t.sps 1
  status : t'.mem (t.sps 1) = okStatus
  frame : ∀ a, InTrapFrame (t.sps 1) 272 a → a ≠ t.sps 1 → t'.mem a = t.mem a

omit [Build] [Mmu AS] in
/-- The other slots of the frame. -/
theorem Resumes.slot {t t' : Processor AS} (h : Resumes t t') {off : ℕ} (hpos : 0 < off)
    (hoff : off < 272) : t'.mem (t.sps 1 + BitVec.ofNat 64 off) =
      t.mem (t.sps 1 + BitVec.ofNat 64 off) := by
  apply h.frame _ (inTrapFrame_slot hoff (by decide))
  intro heq
  rw [← BitVec.add_zero (t.sps 1)] at heq
  have hzero : off = 0 := slot_injective (by omega) (by decide) (heq.trans (by simp))
  omega

omit [Build] [Mmu AS] in
/-- What is left of the call then goes back to the context in the frame, with success in `x0`. -/
theorem Resumes.leads (call : Handler → Processor AS → Option (Processor AS))
    {t t' : Processor AS} (h : Resumes t t') (hframe : FrameKept (syncFrame s) (t.sps 1) 0 t.mem) :
    ∃ s', Leads trampolines call (.at syncReturn t') (.exit (.goto (s.sys .elrEl1) s')) ∧
      (∀ r, s'.x r = if r = 0 then okStatus else s.x r) ∧
      s'.sps 0 = s.sps 0 ∧ s'.sps 1 = t.sps 1 + 272 ∧ s'.pstate = s.sys .spsrEl1 ∧
      s'.world = t'.world := by
  have hframe' : FrameKept (syncFrame s) (t'.sps 1) 64 t'.mem := by
    intro off w hmem hlow
    have hbound : off < 272 := (syncFrame_offsets _).2 _ (List.mem_map_of_mem hmem)
    rw [h.sp, h.slot (by omega) hbound]
    exact hframe off w hmem (Nat.zero_le _)
  obtain ⟨s', hreturn, hregs, hspEl0, hspEl1, hpstate, -, hworld⟩ :=
    syncReturn_leads call h.atVector hframe'
  refine ⟨s', hreturn, fun r => ?_, hspEl0, hspEl1.trans (by rw [h.sp]), hpstate, hworld⟩
  rw [hregs r, h.sp]
  by_cases hzero : r = 0
  · subst hzero
    rw [if_pos rfl]
    exact (congrArg t'.mem (BitVec.add_zero _)).trans h.status
  · have hpos : 0 < r.val := Nat.pos_of_ne_zero fun h => hzero (Fin.ext h)
    rw [if_neg hzero]
    split
    · rw [h.slot (by omega) (by omega)]
      exact hframe _ _ (mem_syncFrame_x _ r) (Nat.zero_le _)
    · rfl

/-- A system call of EL0, or of the kernel itself, whose handler comes back, comes back to the
instruction after it with the status and the payload of its handler in `x0` to `x7` (after a yield
that did not switch only the status, in `x0`). Every other general register, both stack pointers
and the processor status are as they were, and what else has changed is what the handler did. A
yield that switches leaves its frame on the stack; when the task runs again it comes back to the
instruction after it too, with success in `x0` and all else as it was. -/
theorem svc_round_trip (scratch : Processor AS → Scratch) (s : Processor AS) (pc esr : Word)
    (hsource : vectorSource s = .lowerElAarch64 ∨ vectorSource s = .currElSpx)
    (haligned : (s.sps 1).toNat % 16 = 0) (hclass : exceptionClass esr = svc64)
    (hrun : (System.syscallEntry ⟨s.x 8, #v[s.x 0, s.x 1, s.x 2, s.x 3, s.x 4, s.x 5]⟩).run
      s.world.system = .ok reply system) :
    (reply ≠ .switched → ∃ s', Leads trampolines (handlers scratch)
        (.at (vectorEntry (vectorSource s) .sync) (takes s pc (.sync esr)))
        (.exit (.goto pc s')) ∧
      (∀ r, s'.x r = (replyRegister reply r).getD (s.x r)) ∧
      s'.sps 0 = s.sps 0 ∧ s'.sps 1 = s.sps 1 ∧ s'.pstate = s.pstate ∧
      s'.world = { s.world with system }) ∧
    ∃ t, Leads trampolines (handlers scratch)
        (.at (vectorEntry (vectorSource s) .sync) (takes s pc (.sync esr)))
        (.at (.bl .syscallEntry :: syncReturn) t) ∧
      (reply = .switched → handlers scratch .syscallEntry t = none) ∧
      ∀ t', Resumes t t' → ∃ s', Leads trampolines (handlers scratch) (.at syncReturn t')
          (.exit (.goto pc s')) ∧
        (∀ r, s'.x r = if r = 0 then okStatus else s.x r) ∧
        s'.sps 0 = s.sps 0 ∧ s'.sps 1 = s.sps 1 ∧ s'.pstate = s.pstate ∧
        s'.world = t'.world := by
  obtain ⟨t, hreach, ht, hx, hsp, hframe, -, hworld⟩ :=
    sync_call (handlers scratch) pc haligned hclass
  have hargs : (System.syscallEntry (frameArgs t.mem (t.x 0))).run t.world.system =
      .ok reply system := by
    rw [hx, hframe.args, hworld]
    exact hrun
  have htrampoline : trampolineOf (vectorSource s) .sync = .syncTrampoline := by
    rcases hsource with h | h <;> rw [h] <;> rfl
  have henter : Leads trampolines (handlers scratch)
      (.at (vectorEntry (vectorSource s) .sync) (takes s pc (.sync esr)))
      (.at (.bl .syscallEntry :: syncReturn) t) := by
    apply entry_leads
    rw [htrampoline]
    exact hreach
  refine ⟨fun hback => ?_, t, henter, fun hswitched => ?_, fun t' hresumes => ?_⟩
  · obtain ⟨t', hcall, ht', hsp', hframe', hwords, hworld'⟩ :=
      syscallEntry_call scratch ht hx hframe hargs hback
    rw [← hsp'] at hframe' hwords
    obtain ⟨s', hreturn, hregs, hspEl0, hspEl1, hpstate, -, hworld''⟩ :=
      syncReturn_leads (handlers scratch) ht' hframe'
    refine ⟨s', henter.trans ((Leads.bl hcall).trans hreturn), fun r => ?_, hspEl0, ?_, hpstate, ?_⟩
    · rw [hregs r]
      split
      · next hr => exact hwords r hr
      · next hr =>
        rw [replyRegister_high reply hr]
        rfl
    · rw [hspEl1, hsp', hsp]
      exact BitVec.sub_add_cancel ..
    · rw [hworld'', hworld', hworld]
  · subst hswitched
    simp only [handlers, hargs, replyWords]
    rfl
  · obtain ⟨s', hreturn, hregs, hspEl0, hspEl1, hpstate, hworld'⟩ :=
      hresumes.leads (handlers scratch) hframe
    refine ⟨s', hreturn, hregs, hspEl0, ?_, hpstate, hworld'⟩
    rw [hspEl1, hsp]
    exact BitVec.sub_add_cancel ..

end SystemCalls

/-- A task in EL0 about to make the system call `number`, with `r` in the register `xr`. -/
def atSvc (number : Word) : Processor Unit where
  x r := if r = 8 then number else BitVec.ofNat 64 r.val
  v _ := 0
  sps i := if i = 1 then 0x80000 else 0x4000
  pstate := 0x3c0
  sys _ := 0
  mem _ := 0
  world := ⟨System.board (Kernel.boot .boot), resetCore⟩

/-- The user task about to send on its first handle, with a kernel task that waits for it. -/
def atSend : Processor Unit :=
  { atSvc System.sendArgs.number with
    x := fun r => if r = 5 then nullCapHandle else (atSvc System.sendArgs.number).x r
    world := ⟨System.board (@Kernel.afterTrace debugBuild (Kernel.boot Kernel.twoReceivers)
      System.blockedOps), resetCore⟩ }

/-- Two user tasks, of which the first runs. -/
def twoUsersOps : List KernelOp :=
  [.addUserTask ⟨⟨0, 0⟩⟩ ⟨⟨0, 0⟩⟩ 4096 8192 16384 1,
    .addUserTask ⟨⟨1, 0⟩⟩ ⟨⟨0, 0⟩⟩ 4096 8192 32768 2, .start, .resume]

/-- It is about to yield to the other one. -/
def atYield : Processor Unit :=
  { atSvc 3 with
    world := ⟨System.board (@Kernel.afterTrace debugBuild (Kernel.boot .boot) twoUsersOps),
      resetCore⟩ }

/-- A send comes back with its outcome in `x1`. A yield to another task switches, and comes back
with success when the task runs again. -/
theorem svc_round_trip_send_yield : let _ : Build := debugBuild
    let _ : Mmu Unit := System.noMmu
    (∃ s' : Processor Unit, Leads trampolines (handlers fun _ => ⟨0, 0, 0, 0, 0, 0⟩)
        (.at (vectorEntry .lowerElAarch64 .sync) (takes atSend 0x1000 (.sync 0x56000000)))
        (.exit (.goto 0x1000 s')) ∧
      s'.x 0 = okStatus ∧ s'.x 1 = sendOutcomeDelivered ∧ s'.x 19 = 19 ∧ s'.sps 0 = 0x4000) ∧
    ∃ t : Processor Unit, Leads trampolines (handlers fun _ => ⟨0, 0, 0, 0, 0, 0⟩)
        (.at (vectorEntry .lowerElAarch64 .sync) (takes atYield 0x1000 (.sync 0x56000000)))
        (.at (.bl .syscallEntry :: syncReturn) t) ∧
      handlers (fun _ => ⟨0, 0, 0, 0, 0, 0⟩) .syscallEntry t = none ∧
      ∀ t', Resumes t t' → ∃ s', Leads trampolines (handlers fun _ => ⟨0, 0, 0, 0, 0, 0⟩)
          (.at syncReturn t') (.exit (.goto 0x1000 s')) ∧
        s'.x 0 = okStatus ∧ s'.x 1 = 1 ∧ s'.sps 0 = 0x4000 := by
  intro _ _
  obtain ⟨system, hsend⟩ : ∃ system, (System.syscallEntry ⟨1, #v[0, 1, 2, 3, 4, nullCapHandle]⟩).run
      atSend.world.system = .ok (.resumed (SyscallReturn.ok.withPayload 0 sendOutcomeDelivered))
        system := ⟨_, by with_unfolding_all rfl⟩
  obtain ⟨system', hyield⟩ : ∃ system', (System.syscallEntry ⟨3, #v[0, 1, 2, 3, 4, 5]⟩).run
      atYield.world.system = .ok .switched system' := ⟨_, by with_unfolding_all rfl⟩
  obtain ⟨s', hreach, hx, hspEl0, -⟩ := (svc_round_trip (fun _ => ⟨0, 0, 0, 0, 0, 0⟩) atSend
    0x1000 0x56000000 (Or.inl rfl) (by decide) (by decide) hsend).1 (by simp)
  obtain ⟨t, hleads, hnone, hresumed⟩ := (svc_round_trip (fun _ => ⟨0, 0, 0, 0, 0, 0⟩) atYield
    0x1000 0x56000000 (Or.inl rfl) (by decide) (by decide) hyield).2
  refine ⟨⟨s', hreach, hx 0, hx 1, hx 19, hspEl0⟩, t, hleads, hnone rfl, fun t' hresumes => ?_⟩
  obtain ⟨s'', hback, hregs, hsp, -⟩ := hresumed t' hresumes
  exact ⟨s'', hback, hregs 0, hregs 1, hsp⟩

/-! ## Everything else -/

/-- The exceptions that a handler takes. -/
def Handled (src : VectorSource) : Exception → Prop
  | .sync esr => (src = .lowerElAarch64 ∨ src = .currElSpx) ∧ exceptionClass esr = svc64
  | .irq => src = .currElSpx
  | .fiq => False
  | .serror _ => False

section Unhandled

variable [Build] [Mmu AS]

/-- All other exceptions, from wherever they come, end in `panic_entry`, which gets the class
and the syndrome; nothing else has happened before. -/
theorem unhandled_panics (scratch : Processor AS → Scratch) (s : Processor AS) (pc : Word)
    (e : Exception) (haligned : (s.sps 1).toNat % 16 = 0)
    (hunhandled : ¬ Handled (vectorSource s) e) :
    ∃ t, Leads trampolines (handlers scratch)
        (.at (vectorEntry (vectorSource s) e.kind) (takes s pc e))
        (.exit (.noReturn .panicEntry t)) ∧
      PanicClass.fromU64 (t.x 0) = (if e = .irq then .unhandledIrqMode else .generic) ∧
      t.x 1 = e.esr.getD (s.sys .esrEl1) ∧ t.world = s.world := by
  have hnoReturn : ∀ t : Processor AS, handlers scratch .panicEntry t = none := fun _ => rfl
  generalize vectorSource s = src at hunhandled ⊢
  by_cases hsync : trampolineOf src e.kind = .syncTrampoline
  · cases e with
    | sync esr =>
      have hclass : exceptionClass esr ≠ svc64 := by
        intro hclass
        apply hunhandled
        cases src with
        | currElSpx => exact ⟨Or.inr rfl, hclass⟩
        | lowerElAarch64 => exact ⟨Or.inl rfl, hclass⟩
        | _ => cases hsync
      obtain ⟨t, hreach, hx0, hx1, hworld⟩ :=
        sync_other pc hnoReturn haligned hclass
      refine ⟨t, entry_leads ?_, ?_, hx1, hworld⟩
      · rw [hsync]
        exact hreach
      · rw [hx0]
        rfl
    | irq => cases src <;> cases hsync
    | fiq => cases src <;> cases hsync
    | serror esr => cases src <;> cases hsync
  · have hlabel : trampolineOf src e.kind = .unhandledExceptionTrampoline ∧ e ≠ .irq ∨
        trampolineOf src e.kind = .unhandledIrqTrampoline ∧ e = .irq := by
      cases e with
      | sync esr => cases src <;> simp [trampolineOf, Exception.kind] at hsync ⊢
      | irq => cases src <;> simp [trampolineOf, Exception.kind, Handled] at hunhandled ⊢
      | fiq => cases src <;> simp [trampolineOf, Exception.kind]
      | serror esr => cases src <;> simp [trampolineOf, Exception.kind]
    have hesr : (takes s pc e).sys .esrEl1 = e.esr.getD (s.sys .esrEl1) := by
      cases e <;> rfl
    obtain ⟨t, hreach, hx0, hx1, hworld⟩ := unhandled_leads (s := takes s pc e) hnoReturn
      (hlabel.imp And.left And.left)
    refine ⟨t, entry_leads hreach, ?_, hx1.trans hesr, hworld⟩
    rw [hx0]
    rcases hlabel with ⟨hl, he⟩ | ⟨hl, he⟩
    · rw [hl, if_neg he]
      rfl
    · rw [hl, if_pos he]
      rfl

end Unhandled

/-- An undefined instruction of EL0 panics with its syndrome. -/
theorem unhandled_panics_undefined :
    ∃ t, Leads trampolines
        (@handlers Unit debugBuild System.noMmu fun _ => ⟨0, 0, 0, 0, 0, 0⟩)
        (.at (vectorEntry .lowerElAarch64 .sync) (takes (atSvc 0) 0x1000 (.sync 0x2000000)))
        (.exit (.noReturn .panicEntry t)) ∧
      PanicClass.fromU64 (t.x 0) = .generic ∧ t.x 1 = 0x2000000 := by
  let _ : Build := debugBuild
  let _ : Mmu Unit := System.noMmu
  have hunhandled : ¬ Handled (vectorSource (atSvc 0)) (.sync 0x2000000) := by
    rintro ⟨-, hclass⟩
    exact absurd hclass (by decide)
  obtain ⟨t, hreach, hx0, hx1, -⟩ := unhandled_panics (fun _ => ⟨0, 0, 0, 0, 0, 0⟩) (atSvc 0)
    0x1000 (.sync 0x2000000) (by decide) hunhandled
  exact ⟨t, hreach, hx0, hx1⟩

/-! ## Interrupts -/

section Irq

variable {s t : Processor AS} {pc : Word}

theorem irqFrame_offsets (s : Processor AS) : FrameOffsets (irqFrame s) 192 := by
  have hfst : (irqFrame s).map Prod.fst = [0, 8, 16, 24, 32, 40, 48, 56, 64, 72, 80, 88, 96, 104,
    112, 120, 128, 136, 144, 152, 160, 168] := rfl
  unfold FrameOffsets
  rw [hfst]
  decide

/-- The registers that the frame has a slot for are in it. -/
theorem mem_irqFrame_x (s : Processor AS) {r : Reg} {off : ℕ} (hslot : irqSlot r = some off) :
    (off, s.x r) ∈ irqFrame s := by
  revert hslot
  unfold irqSlot
  fin_cases r <;> simp <;> rintro rfl <;> simp [irqFrame, saved, slots, irqPairs, State.read]

/-- The registers without a slot are callee-saved. -/
theorem calleeSaved_of_irqSlot {r : Reg} (hslot : irqSlot r = none) : CalleeSaved (.x r) := by
  revert hslot
  unfold irqSlot
  intro hslot
  split at hslot
  · cases hslot
  · split at hslot
    · cases hslot
    · exact ⟨by omega, by omega⟩

theorem Shows.at {cpu : QemuVirtCpu} {a : Alarm} (h : Shows cpu a s.world.core) :
    Shows cpu a (irqCoreAt s) :=
  ⟨h.distributor, h.interface, h.mask, h.idle, h.only, h.priority, h.set, h.unset⟩

/-- What is left of the listing after the call of `irq_entry`. -/
def irqReturn : List VectorLine :=
  irqRestore.map .op ++ (.eret .elrEl1 .spsrEl1 ::
    (syncTrampoline ++ (unhandledExceptionTrampoline ++ unhandledIrqTrampoline)))

/-- With the frame in place, and the registers that are not in it, the exception returns to
the saved context. -/
theorem irqReturn_leads (call : Handler → Processor AS → Option (Processor AS))
    (ht : AtVector t) (hframe : FrameKept (irqFrame s) (t.sps 1) 0 t.mem)
    (hsaved : ∀ r, irqSlot r = none → t.x r = s.x r) :
    ∃ s', Leads trampolines call (.at irqReturn t) (.exit (.goto (s.sys .elrEl1) s')) ∧
      s'.x = s.x ∧ s'.sps 1 = t.sps 1 + 192 ∧ s'.pstate = s.sys .spsrEl1 ∧ s'.v = t.v ∧
      s'.world = t.world := by
  obtain ⟨s₁, hrun, hunwound, -⟩ := irqRestore_exec ht
  have helr : s₁.sys .elrEl1 = s.sys .elrEl1 :=
    hunwound.elr.trans (hframe 0xA0 _ (by simp [irqFrame]) (Nat.zero_le _))
  have hspsr : s₁.sys .spsrEl1 = s.sys .spsrEl1 :=
    hunwound.spsr.trans (hframe 0xA8 _ (by simp [irqFrame]) (Nat.zero_le _))
  have hexit : Leads trampolines call (.at irqReturn t)
      (.exit (.goto (s₁.readSys .elrEl1) (s₁.returned .spsrEl1))) :=
    (Leads.block hrun).trans (Leads.eret ..)
  have hpc : s₁.readSys .elrEl1 = s.sys .elrEl1 := helr
  rw [hpc] at hexit
  refine ⟨_, hexit, ?_, hunwound.sp, hspsr, hunwound.v, hunwound.world⟩
  funext r
  refine (hunwound.x r).trans ?_
  cases hslot : irqSlot r with
  | some off => exact hframe off _ (mem_irqFrame_x s hslot) (Nat.zero_le _)
  | none => exact hsaved r hslot

variable [Build] [Mmu AS]

/-- `irq_entry` comes back with the frame in place when the core shows an alarm. -/
theorem irqEntry_call (scratch : Processor AS → Scratch) {cpu : QemuVirtCpu} {a : Alarm}
    {words : List (ℕ × Word)} (ht : AtVector t) (hx : t.x 0 = t.sps 1)
    (hwords : FrameOffsets words 192) (hframe : FrameKept words (t.sps 1) 0 t.mem)
    (hshows : Shows cpu a t.world.core) :
    ∃ t', handlers scratch .irqEntry t = some t' ∧ AtVector t' ∧ t'.sps 1 = t.sps 1 ∧
      FrameKept words (t.sps 1) 0 t'.mem ∧ (∀ r, irqSlot r = none → t'.x r = t.x r) ∧
      (∀ r, CalleeSaved (.d r) → (t'.v r).setWidth 64 = (t.v r).setWidth 64) ∧
      t'.world.system = t.world.system ∧
      Shows cpu (if Due cpu.frequencyHz t.world.core.timer.count a then none else a)
        t'.world.core := by
  obtain ⟨core, hrun, hafter⟩ := (Shows.at hshows).exec .interrupt
  have hrun : (irqEntry : IrqM Empty Unit).run (irqCoreAt t) = .ok () core := hrun
  have hcall : handlers scratch .irqEntry t = some (t.comesBack (scratch t)
      (InTrapFrame (t.x 0) 192) { t.world with core }) := by
    simp only [handlers, hrun]
  refine ⟨_, hcall, comesBack_atVector ht, rfl, ?_, fun r hr => ?_, fun r => comesBack_low_half,
    rfl, hafter⟩
  · intro off w hmem hlow
    have hbound : off < 192 := hwords.2 _ (List.mem_map_of_mem hmem)
    rw [comesBack_frame (by rw [hx]; exact inTrapFrame_slot hbound (by decide))]
    exact hframe off w hmem hlow
  · exact if_pos (calleeSaved_of_irqSlot hr)

/-- An interrupt of kernel code is transparent: control comes back to the interrupted
instruction with every general register, the stack pointer, the processor status and the low
halves of `v8` to `v15` as they were, and with the alarm turned off if it was due. -/
theorem irq_transparent (scratch : Processor AS → Scratch) {cpu : QemuVirtCpu} {a : Alarm}
    (s : Processor AS) (pc : Word) (hsource : vectorSource s = .currElSpx)
    (haligned : (s.sps 1).toNat % 16 = 0) (hshows : Shows cpu a s.world.core) :
    ∃ s', Leads trampolines (handlers scratch)
        (.at (vectorEntry (vectorSource s) .irq) (takes s pc .irq)) (.exit (.goto pc s')) ∧
      s'.x = s.x ∧ s'.sps 1 = s.sps 1 ∧ s'.pstate = s.pstate ∧
      (∀ r, CalleeSaved (.d r) → (s'.v r).setWidth 64 = (s.v r).setWidth 64) ∧
      s'.world.system = s.world.system ∧
      Shows cpu (if Due cpu.frequencyHz s.world.core.timer.count a then none else a)
        s'.world.core := by
  have hvector := takes_atVector pc .irq haligned
  obtain ⟨t, hsave, hx0, hspilled⟩ := irqSave_exec hvector
  have ht : AtVector t := hspilled.atVector (hvector.push 192 (by decide))
  have hsp : t.sps 1 = s.sps 1 - 192 := by
    rw [hspilled.sps, hvector.setSp_sps_one, hvector.sp]
    rfl
  have hx : t.x 0 = t.sps 1 := by
    rw [hx0, hsp]
    rfl
  have hmem : t.mem = storeAll s.mem (t.sps 1) (irqFrame (takes s pc .irq)) := by
    rw [hspilled.mem, hspilled.sps]
    rfl
  have hworld : t.world = s.world := hspilled.world
  have hwords := irqFrame_offsets (takes s pc .irq)
  have hframe : FrameKept (irqFrame (takes s pc .irq)) (t.sps 1) 0 t.mem := by
    rw [hmem]
    exact frameKept_saved hwords (by decide) _ _
  obtain ⟨t', hcall, ht', hsp', hframe', hregs, hlow, hsystem, hcore⟩ :=
    irqEntry_call scratch ht hx hwords hframe (hworld ▸ hshows)
  rw [← hsp'] at hframe'
  have hsaved : ∀ r, irqSlot r = none → t'.x r = (takes s pc .irq).x r := by
    intro r hr
    have h0 : r ≠ 0 := by
      rintro rfl
      cases hr
    have h1 : r ≠ 1 := by
      rintro rfl
      cases hr
    exact (hregs r hr).trans (hspilled.x r h0 h1)
  obtain ⟨s', hreturn, hx', hsp'', hpstate, hv, hworld'⟩ :=
    irqReturn_leads (handlers scratch) ht' hframe' hsaved
  refine ⟨s', entry_leads ?_, hx', ?_, hpstate, fun r hr => ?_, ?_, ?_⟩
  · rw [hsource]
    exact (Leads.block hsave).trans ((Leads.bl hcall).trans hreturn)
  · rw [hsp'', hsp', hsp]
    exact BitVec.sub_add_cancel ..
  · rw [hv, hlow r hr, hspilled.v]
    rfl
  · rw [hworld', hsystem, hworld]
  · rw [hworld', ← hworld]
    exact hcore

end Irq

/-- Kernel code on its own stack, with interrupts unmasked. -/
def inKernel (core : IrqCore) : Processor Unit :=
  { atSvc 7 with pstate := 0x5, world := ⟨System.board (Kernel.boot .boot), core⟩ }

/-- An interrupt right after boot finds nothing. At 62.5 MHz an alarm that is set for 16
nanoseconds is due at the first tick; the interrupt of that tick turns it off. -/
theorem irq_transparent_due : let _ : Build := debugBuild
    let _ : Mmu Unit := System.noMmu
    let cpu : QemuVirtCpu := ⟨62500000, 16, by decide⟩
    ∃ booted es core, (startInterrupts : IrqM Empty Unit).run resetCore = .ok () booted ∧
      Run (IrqCore.Step cpu) booted es core ∧ core.signals = true ∧
      (∃ s' : Processor Unit, Leads trampolines (handlers fun _ => ⟨0, 0, 0, 0, 0, 0⟩)
          (.at (vectorEntry .currElSpx .irq) (takes (inKernel booted) 0x1000 .irq))
          (.exit (.goto 0x1000 s')) ∧ s'.x 8 = 7 ∧ Shows cpu none s'.world.core) ∧
      ∃ s' : Processor Unit, Leads trampolines (handlers fun _ => ⟨0, 0, 0, 0, 0, 0⟩)
          (.at (vectorEntry .currElSpx .irq) (takes (inKernel core) 0x1000 .irq))
          (.exit (.goto 0x1000 s')) ∧
        s'.x 8 = 7 ∧ s'.sps 1 = 0x80000 ∧ s'.pstate = 0x5 ∧ Shows cpu none s'.world.core := by
  intro _ _ cpu
  have hquiet : Quiet resetCore.gic := ⟨fun _ => rfl, fun _ _ _ => rfl, by decide⟩
  obtain ⟨booted, hstart, hshows⟩ := startInterrupts_run hquiet cpu
  obtain ⟨armed, harm⟩ : ∃ armed, IrqCore.Step cpu booted ⟨booted, .armDeadline 16⟩ armed :=
    ⟨_, rfl, trivial, armDeadline_run cpu 16⟩
  obtain ⟨core, hadvance, hcount⟩ : ∃ core,
      IrqCore.Step cpu armed ⟨armed, .advance 1⟩ core ∧ core.timer.count = 1 :=
    ⟨_, ⟨rfl, trivial, rfl⟩, rfl⟩
  have hrun := Run.cons harm (Run.single hadvance)
  have harmed := shows_of_run hshows hrun
  have hdue : Due cpu.frequencyHz core.timer.count
      (alarmAfter cpu [⟨booted, .armDeadline 16⟩, ⟨armed, .advance 1⟩]) := by
    rw [hcount]
    show ticksOf 62500000 16 ≤ 1
    decide
  have hsource : ∀ core, vectorSource (inKernel core) = .currElSpx := fun core => by
    simp [vectorSource, inKernel, el, spSel]
  obtain ⟨s₁, hreach₁, hx₁, -, -, -, -, hcore₁⟩ := irq_transparent
    (fun _ => ⟨0, 0, 0, 0, 0, 0⟩) (inKernel booted) 0x1000 (hsource _)
    (by simp [inKernel, atSvc]) hshows
  obtain ⟨s₂, hreach₂, hx₂, hsp, hpstate, -, -, hcore₂⟩ := irq_transparent
    (fun _ => ⟨0, 0, 0, 0, 0, 0⟩) (inKernel core) 0x1000 (hsource _)
    (by simp [inKernel, atSvc]) harmed
  rw [hsource] at hreach₁ hreach₂
  have hoff : Shows cpu none s₂.world.core := by
    change Shows cpu (if Due cpu.frequencyHz core.timer.count _ then none else _) _ at hcore₂
    rwa [if_pos hdue] at hcore₂
  refine ⟨booted, _, _, hstart, hrun, harmed.signals_iff.mpr hdue,
    ⟨s₁, hreach₁, congrFun hx₁ 8, ?_⟩, s₂, hreach₂, congrFun hx₂ 8, hsp, hpstate, hoff⟩
  rwa [ite_self] at hcore₁

end Tyrne
