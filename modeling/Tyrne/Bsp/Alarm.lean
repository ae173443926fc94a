import Tyrne.Bsp.Interrupts

/-!
# The one-shot alarm

What the deadline timer, the controller and `irq_entry` are for: an alarm that is set to a
deadline, goes off once when the counter has reached it, and can be cancelled. Every run of
the core, in whatever order deadlines are armed and cancelled, interrupts are masked and
taken, the counter moves on and other devices drive their lines, is a run of that alarm.
-/

namespace Tyrne

/-- The deadline that the alarm is set to, if any. -/
abbrev Alarm := Option (BitVec 64)

/-- The counter has reached the alarm's deadline. -/
def Due (f count : BitVec 64) : Alarm → Prop
  | none => False
  | some deadlineNs => ticksOf f deadlineNs ≤ count

instance (f count : BitVec 64) : DecidablePred (Due f count)
  | none => inferInstanceAs (Decidable False)
  | some _ => inferInstanceAs (Decidable (_ ≤ _))

/-! ## Runs of the core -/

inductive IrqOp
  | armDeadline (deadlineNs : BitVec 64)
  | cancelDeadline
  | disableIrqs
  | restoreIrqState (state : BitVec 64)
  /-- An IRQ exception. -/
  | interrupt
  /-- The counter moves to a count. -/
  | advance (count : BitVec 64)
  /-- The other devices drive their lines. -/
  | drive (lines : ℕ → Bool)

/-- An interrupt is taken only while interrupts are not masked. -/
def IrqOp.Enabled (c : IrqCore) : IrqOp → Prop
  | .interrupt => c.irqMasked = false
  | _ => True

/-- An operation with the core it found. -/
structure IrqEvent where
  before : IrqCore
  op : IrqOp

namespace IrqCore

def exec (cpu : QemuVirtCpu) : IrqOp → IrqM Empty Unit
  | .armDeadline deadlineNs => cpu.armDeadline deadlineNs
  | .cancelDeadline => QemuVirtCpu.cancelDeadline
  | .disableIrqs => do
    let _ ← QemuVirtCpu.disableIrqs
    pure ()
  | .restoreIrqState state => QemuVirtCpu.restoreIrqState state
  | .interrupt => irqEntry
  | .advance count => Prog.modify fun c => { c with timer := { c.timer with count } }
  | .drive lines => Prog.modify fun c => { c with lines }

structure Step (cpu : QemuVirtCpu) (c : IrqCore) (e : IrqEvent) (c' : IrqCore) : Prop where
  before : e.before = c
  enabled : e.op.Enabled c
  exec : (exec cpu e.op).run c = .ok () c'

end IrqCore

/-- What an event does to the alarm. -/
def Alarm.next (cpu : QemuVirtCpu) (a : Alarm) (e : IrqEvent) : Alarm :=
  match e.op with
  | .armDeadline deadlineNs => some deadlineNs
  | .cancelDeadline => none
  | .interrupt => if Due cpu.frequencyHz e.before.timer.count a then none else a
  | _ => a

def alarmAfter (cpu : QemuVirtCpu) (es : List IrqEvent) : Alarm :=
  es.foldl (Alarm.next cpu) none

/-! ## The core shows the alarm -/

/-- Before `init`: no line is being handled, the processor's own lines are disabled, and the
timer's line is not below every priority. -/
structure Quiet (d : Gic.Device) : Prop where
  idle : ∀ n, d.active n = false
  disabled : ∀ n, Gic.firstLine ≤ n → n < Gic.firstShared → d.enabled n = false
  priority : d.priority timerIrq.toNat < 0xff

/-- The state of the core agrees with the alarm. -/
structure Shows (cpu : QemuVirtCpu) (a : Alarm) (c : IrqCore) : Prop where
  distributor : c.gic.distributor.getLsbD 0 = true
  interface : c.gic.interface.getLsbD 0 = true
  mask : c.gic.mask = 0xff
  idle : ∀ n, c.gic.active n = false
  only : ∀ n, Gic.firstLine ≤ n → c.gic.Implements n → c.gic.enabled n = true →
    n = timerIrq.toNat
  priority : c.gic.priority timerIrq.toNat < 0xff
  set : ∀ deadlineNs, a = some deadlineNs → c.gic.enabled timerIrq.toNat = true ∧
    c.timer.ctl = 1 ∧ c.timer.cval = ticksOf cpu.frequencyHz deadlineNs
  unset : a = none → c.gic.enabled timerIrq.toNat = false ∨ c.timer.ctl = 2

variable {cpu : QemuVirtCpu} {a : Alarm} {c c' : IrqCore}

/-- Every controller has the timer's line. -/
theorem implements_timerIrq (d : Gic.Device) : d.Implements timerIrq.toNat := by
  unfold Gic.Device.Implements Gic.Device.lineCount timerIrq Gic.lineLimit
  constructor
  · show 27 < _
    omega
  · decide

namespace Shows

/-- The timer asserts its line, and the line is enabled, exactly when the alarm is due. -/
theorem asserts_iff (h : Shows cpu a c) :
    c.timer.asserts = true ∧ c.gic.enabled timerIrq.toNat = true ↔
      Due cpu.frequencyHz c.timer.count a := by
  cases a with
  | none =>
    refine iff_of_false ?_ id
    rintro ⟨hasserts, henabled⟩
    rcases h.unset rfl with hoff | hctl
    · rw [hoff] at henabled
      cases henabled
    · unfold VirtualTimer.asserts at hasserts
      rw [hctl] at hasserts
      simp at hasserts
  | some deadlineNs =>
    obtain ⟨henabled, hctl, hcval⟩ := h.set deadlineNs rfl
    unfold VirtualTimer.asserts Due
    rw [hctl, hcval, henabled]
    simp

/-- The timer's line is the only candidate, and it is one when the alarm is due. -/
theorem candidate_iff (h : Shows cpu a c) {n : ℕ} : c.gic.Candidate c.pins n ↔
    n = timerIrq.toNat ∧ Due cpu.frequencyHz c.timer.count a := by
  rw [← h.asserts_iff]
  constructor
  · rintro ⟨hline, himp, hpin, henabled, -⟩
    obtain rfl := h.only n hline himp henabled
    unfold IrqCore.pins at hpin
    rw [if_pos rfl] at hpin
    exact ⟨rfl, hpin, henabled⟩
  · rintro ⟨rfl, hasserts, henabled⟩
    refine ⟨by decide, implements_timerIrq _, ?_, henabled, fun hshared => ?_, ?_, ?_⟩
    · unfold IrqCore.pins
      rw [if_pos rfl]
      exact hasserts
    · exact absurd hshared (by decide)
    · rw [h.mask]
      exact h.priority
    · intro m _ hactive
      rw [h.idle m] at hactive
      cases hactive

theorem signals_iff (h : Shows cpu a c) :
    c.signals = true ↔ Due cpu.frequencyHz c.timer.count a := by
  unfold IrqCore.signals
  rw [Gic.Device.signals_iff h.distributor h.interface]
  constructor
  · rintro ⟨n, hn⟩
    exact (h.candidate_iff.mp hn).2
  · intro hdue
    exact ⟨_, h.candidate_iff.mpr ⟨rfl, hdue⟩⟩

/-- What the acknowledge register returns. -/
theorem highest (h : Shows cpu a c) : c.gic.highest c.pins =
    if Due cpu.frequencyHz c.timer.count a then some timerIrq.toNat else none := by
  split
  · next hdue =>
    exact Gic.Device.highest_eq_some h.distributor h.interface
      (h.candidate_iff.mpr ⟨rfl, hdue⟩) fun m hm => (h.candidate_iff.mp hm).1
  · next hnot => exact Gic.Device.highest_eq_none fun n hn => hnot (h.candidate_iff.mp hn).2

end Shows

/-! ## One step -/

/-- `irq_entry` turns the timer off when the alarm is due; else the read was spurious. -/
theorem irqEntry_run (h : Shows cpu a c) : (irqEntry : IrqM Empty Unit).run c = .ok ()
    (if Due cpu.frequencyHz c.timer.count a then { c with timer := { c.timer with ctl := 2 } }
      else c) := by
  have hhighest := h.highest
  split
  · next hdue =>
    rw [if_pos hdue] at hhighest
    have hread : (QemuVirtGic.acknowledge : IrqM Empty (Option (BitVec 32))).run c =
        .ok (some timerIrq) { c with
          gic := { c.gic with active := Function.update c.gic.active timerIrq.toNat true } } := by
      unfold QemuVirtGic.acknowledge QemuVirtGic.readCpuInterface
      simp [Prog.bind_run, giccIar, Gic.Device.readInterface, Gic.Device.acknowledge, hhighest]
      decide
    have hidle : Function.update (Function.update c.gic.active timerIrq.toNat true)
        timerIrq.toNat false = c.gic.active := by
      rw [Function.update_idem, ← h.idle timerIrq.toNat, Function.update_eq_self]
    unfold irqEntry
    refine (Prog.bind_ok hread).trans ?_
    have hend : { c with
        gic := { c.gic with
          active := Function.update (Function.update c.gic.active timerIrq.toNat true)
            timerIrq.toNat false }
        timer := { c.timer with ctl := 2 } } = { c with timer := { c.timer with ctl := 2 } } := by
      rw [hidle]
    exact congrArg (Result.ok ()) hend
  · next hnot =>
    rw [if_neg hnot] at hhighest
    unfold irqEntry
    have hread : (QemuVirtGic.acknowledge : IrqM Empty (Option (BitVec 32))).run c =
        .ok none c := by
      unfold QemuVirtGic.acknowledge QemuVirtGic.readCpuInterface
      simp [Prog.bind_run, giccIar, Gic.Device.readInterface, Gic.Device.acknowledge, hhighest]
      rfl
    exact Prog.bind_ok hread

/-- No operation panics, and what it does to the core is what it does to the alarm. -/
theorem Shows.exec (h : Shows cpu a c) (op : IrqOp) :
    ∃ c', (IrqCore.exec cpu op).run c = .ok () c' ∧ Shows cpu (Alarm.next cpu a ⟨c, op⟩) c' := by
  have himp := implements_timerIrq c.gic
  cases op with
  | armDeadline deadlineNs =>
    refine ⟨_, armDeadline_run cpu deadlineNs, ?_⟩
    refine ⟨h.distributor, h.interface, h.mask, h.idle, ?_, h.priority, ?_, ?_⟩
    · intro n hline hn henabled
      dsimp only at henabled
      rw [Bool.or_eq_true] at henabled
      rcases henabled with hold | hnew
      · exact h.only n hline hn hold
      · simp only [Bool.and_eq_true, decide_eq_true_eq] at hnew
        exact hnew.1
    · intro d hd
      cases hd
      refine ⟨?_, rfl, rfl⟩
      simp [himp]
    · intro hnone
      cases hnone
  | cancelDeadline =>
    refine ⟨_, cancelDeadline_run, ?_⟩
    refine ⟨h.distributor, h.interface, h.mask, h.idle, ?_, h.priority, ?_, ?_⟩
    · intro n hline hn henabled
      dsimp only at henabled
      rw [Bool.and_eq_true] at henabled
      exact h.only n hline hn henabled.1
    · intro d hd
      cases hd
    · intro _
      exact Or.inr rfl
  | interrupt =>
    refine ⟨_, irqEntry_run h, ?_⟩
    unfold Alarm.next
    dsimp only
    split
    · refine ⟨h.distributor, h.interface, h.mask, h.idle, h.only, h.priority, ?_, ?_⟩
      · intro d hd
        cases hd
      · intro _
        exact Or.inr rfl
    · exact h
  | disableIrqs =>
    exact ⟨_, rfl, h.distributor, h.interface, h.mask, h.idle, h.only, h.priority, h.set, h.unset⟩
  | restoreIrqState state =>
    exact ⟨_, rfl, h.distributor, h.interface, h.mask, h.idle, h.only, h.priority, h.set, h.unset⟩
  | advance count =>
    exact ⟨_, rfl, h.distributor, h.interface, h.mask, h.idle, h.only, h.priority, h.set, h.unset⟩
  | drive lines =>
    exact ⟨_, rfl, h.distributor, h.interface, h.mask, h.idle, h.only, h.priority, h.set, h.unset⟩

theorem Shows.step {e : IrqEvent} (h : Shows cpu a c) (hstep : IrqCore.Step cpu c e c') :
    Shows cpu (Alarm.next cpu a e) c' := by
  obtain ⟨c₁, hrun, hshows⟩ := h.exec e.op
  obtain rfl : c₁ = c' := by
    rw [hstep.exec] at hrun
    cases hrun
    rfl
  have hnext : Alarm.next cpu a e = Alarm.next cpu a ⟨c, e.op⟩ := by
    unfold Alarm.next
    rw [hstep.before]
  rw [hnext]
  exact hshows

/-! ## Whole runs -/

/-- After the start-up no alarm is set. -/
theorem startInterrupts_run (hquiet : Quiet c.gic) (cpu : QemuVirtCpu) :
    ∃ c', (startInterrupts : IrqM Empty Unit).run c = .ok () c' ∧ Shows cpu none c' := by
  refine ⟨_, Prog.bind_ok (init_run c), ?_⟩
  have hown : ∀ n, Gic.firstLine ≤ n → c.gic.Implements n →
      (initialised c.gic).enabled n = false := by
    intro n hline himp
    unfold initialised
    by_cases hshared : firstSpi ≤ n
    · have hdone : Shared c.gic c.gic.lineCount n := ⟨hshared, himp.1, himp⟩
      simp [hdone]
    · simp [hquiet.disabled n hline (Nat.lt_of_not_le hshared)]
  have hone : (1 : BitVec 32).getLsbD 0 = true := rfl
  refine ⟨hone, hone, rfl, hquiet.idle, ?_, ?_, ?_, ?_⟩
  · intro n hline himp henabled
    rw [hown n hline himp] at henabled
    cases henabled
  · have hnot : ¬ Shared c.gic c.gic.lineCount timerIrq.toNat := by
      rintro ⟨hshared, _⟩
      exact absurd hshared (by decide)
    have hkept : (initialised c.gic).priority timerIrq.toNat = c.gic.priority timerIrq.toNat := by
      unfold initialised
      dsimp only
      rw [if_neg hnot]
    exact lt_of_eq_of_lt hkept hquiet.priority
  · intro d hd
    cases hd
  · intro _
    exact Or.inl (hown _ (by decide) (implements_timerIrq c.gic))

theorem shows_of_run {es : List IrqEvent} (h : Shows cpu none c)
    (hrun : Run (IrqCore.Step cpu) c es c') : Shows cpu (alarmAfter cpu es) c' := by
  refine hrun.history (I := fun es c => Shows cpu (alarmAfter cpu es) c) h ?_
  intro es c e c' hpast hstep
  have hnext : alarmAfter cpu (es ++ [e]) = Alarm.next cpu (alarmAfter cpu es) e := by
    unfold alarmAfter
    rw [List.foldl_append]
    rfl
  rw [hnext]
  exact hpast.step hstep

/-- From boot on the timer, the controller and `irq_entry` are a one-shot alarm. Over every
run the controller asks for an interrupt exactly when the deadline armed last, if it was
neither cancelled nor handled, has been reached by the counter, which is when the time that
`now_ns` reports has reached it; no operation panics; and no line is left active. -/
theorem IrqCore.one_shot (cpu : QemuVirtCpu) {c₀ : IrqCore} (hquiet : Quiet c₀.gic) :
    ∃ c₁, (startInterrupts : IrqM Empty Unit).run c₀ = .ok () c₁ ∧
      ∀ es c, Run (IrqCore.Step cpu) c₁ es c →
        (c.signals = true ↔ Due cpu.frequencyHz c.timer.count (alarmAfter cpu es)) ∧
        (∃ now, (cpu.nowNs : IrqM Empty (BitVec 64)).run c = .ok now c ∧
          ∀ deadlineNs, alarmAfter cpu es = some deadlineNs →
            (deadlineNs.toNat * cpu.frequencyHz.toNat) ⌈/⌉ nanosPerSecond.toNat < 2 ^ 64 →
              (c.signals = true ↔ deadlineNs ≤ now)) ∧
        (∀ op, ∃ c', (IrqCore.exec cpu op).run c = .ok () c') ∧
        ∀ n, c.gic.active n = false := by
  obtain ⟨c₁, hstart, hshows⟩ := startInterrupts_run hquiet cpu
  refine ⟨c₁, hstart, fun es c hrun => ?_⟩
  have h := shows_of_run hshows hrun
  refine ⟨h.signals_iff, ⟨_, cpu.nowNs_run, fun deadlineNs hset hfits => ?_⟩, fun op => ?_,
    h.idle⟩
  · rw [h.signals_iff, hset]
    exact ticksOf_le_iff cpu.frequencyHz_ne_zero hfits
  · obtain ⟨c', hexec, _⟩ := h.exec op
    exact ⟨c', hexec⟩

/-- A core after reset, with 96 lines. -/
def resetCore : IrqCore where
  gic := ⟨0, 2, fun _ => false, fun _ => false, fun _ => 0, fun _ => 0, 0, 0⟩
  timer := ⟨0, 0, 0⟩
  lines := fun _ => false
  daif := 0x3c0

/-- At 62.5 MHz a deadline of 16 nanoseconds goes off at the first tick. -/
theorem IrqCore.one_shot_after_16_ns :
    ∃ c₁ es c, (startInterrupts : IrqM Empty Unit).run resetCore = .ok () c₁ ∧
      Run (IrqCore.Step ⟨62500000, 16, by decide⟩) c₁ es c ∧ c.timer.count = 1 ∧
      c.signals = true := by
  have hquiet : Quiet resetCore.gic := ⟨fun _ => rfl, fun _ _ _ => rfl, by decide⟩
  obtain ⟨c₁, hstart, hruns⟩ := IrqCore.one_shot ⟨62500000, 16, by decide⟩ hquiet
  have harm : IrqCore.Step ⟨62500000, 16, by decide⟩ c₁ ⟨c₁, .armDeadline 16⟩ _ :=
    ⟨rfl, trivial, armDeadline_run ⟨62500000, 16, by decide⟩ 16⟩
  have hadvance : ∀ c, IrqCore.Step ⟨62500000, 16, by decide⟩ c ⟨c, .advance 1⟩
      { c with timer := { c.timer with count := 1 } } := fun _ => ⟨rfl, trivial, rfl⟩
  have hrun := Run.cons harm (Run.single (hadvance _))
  refine ⟨c₁, _, _, hstart, hrun, rfl, (hruns _ _ hrun).1.mpr ?_⟩
  show ticksOf 62500000 16 ≤ 1
  decide

end Tyrne
