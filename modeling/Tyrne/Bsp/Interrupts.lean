import Tyrne.Hal.Timer
import Tyrne.Library.A64
import Tyrne.Library.Gic
import Tyrne.Library.Run

/-!
# Timer interrupts

The driver of the interrupt controller, the deadline half of the timer, and `irq_entry`. The
virtual timer drives line 27 as long as it is enabled, not masked and has reached its
comparator; the other lines belong to devices that the kernel does not know about. Register
offsets are relative to the two windows of the controller.
-/

namespace Tyrne

/-! ## The core -/

/-- `CNTVCT_EL0`, `CNTV_CVAL_EL0` and `CNTV_CTL_EL0`. -/
structure VirtualTimer where
  count : BitVec 64
  cval : BitVec 64
  ctl : BitVec 64

/-- Whether the timer asserts its line: enabled, not masked, and the comparator reached. -/
def VirtualTimer.asserts (t : VirtualTimer) : Bool :=
  t.ctl.getLsbD 0 && !t.ctl.getLsbD 1 && decide (t.cval ≤ t.count)

structure IrqCore where
  gic : Gic.Device
  timer : VirtualTimer
  /-- The lines of all other devices. -/
  lines : ℕ → Bool
  daif : BitVec 64

/-- `TIMER_IRQ`: the line of the virtual timer. -/
def timerIrq : BitVec 32 := 27

namespace IrqCore

/-- What the controller sees on its lines. -/
def pins (c : IrqCore) (n : ℕ) : Bool := if n = timerIrq.toNat then c.timer.asserts else c.lines n

/-- The I bit of `DAIF`. -/
def irqMasked (c : IrqCore) : Bool := c.daif.getLsbD 7

/-- Whether the controller asks for an interrupt. -/
def signals (c : IrqCore) : Bool := c.gic.signals c.pins

end IrqCore

abbrev IrqM (ε : Type) := Prog IrqCore ε

variable {ε : Type}

/-! ## The controller's driver -/

def gicdCtlr : ℕ := 0x000
def gicdTyper : ℕ := 0x004
def gicdIsenablerBase : ℕ := 0x100
def gicdIcenablerBase : ℕ := 0x180
def gicdIpriorityrBase : ℕ := 0x400
def gicdItargetsrBase : ℕ := 0x800
def giccCtlr : ℕ := 0x000
def giccPmr : ℕ := 0x004
def giccIar : ℕ := 0x00c
def giccEoir : ℕ := 0x010

def gicSpuriousIntid : BitVec 32 := 1023
def giccIarIntidMask : BitVec 32 := 0x3ff
def firstSpi : ℕ := 32
def defaultPriorityByte : BitVec 32 := 0xa0
def targetCpu0Byte : BitVec 32 := 0x01
def gicMaxIrq : BitVec 32 := 1020

namespace QemuVirtGic

def busFault : Panic := .unreachable "access outside the controller's registers"

def readDistributor (offset : ℕ) : IrqM ε (BitVec 32) := ⟨fun c =>
  match c.gic.readDistributor offset with
  | some value => .ok value c
  | none => .panic busFault⟩

def writeDistributor (offset : ℕ) (value : BitVec 32) : IrqM ε Unit := ⟨fun c =>
  match c.gic.writeDistributor offset value with
  | some gic => .ok () { c with gic }
  | none => .panic busFault⟩

def readCpuInterface (offset : ℕ) : IrqM ε (BitVec 32) := ⟨fun c =>
  match c.gic.readInterface c.pins offset with
  | some (value, gic) => .ok value { c with gic }
  | none => .panic busFault⟩

def writeCpuInterface (offset : ℕ) (value : BitVec 32) : IrqM ε Unit := ⟨fun c =>
  match c.gic.writeInterface offset value with
  | some gic => .ok () { c with gic }
  | none => .panic busFault⟩

/-- A byte in all four places of a word. -/
def replicated (byte : BitVec 32) : BitVec 32 :=
  byte ||| (byte <<< 8) ||| (byte <<< 16) ||| (byte <<< 24)

/-- Write the word to the byte registers of the shared lines, four lines at a time. -/
def writeSpiBytes (base irqCount : ℕ) (word : BitVec 32) : IrqM ε Unit := do
  let _ ← Prog.loop (· < irqCount) (fun byteIdx => do
    writeDistributor (base + byteIdx) word
    pure (byteIdx + 4)) (irqCount + 1) firstSpi

def init : IrqM ε Unit := do
  writeDistributor gicdCtlr 0
  let typer ← readDistributor gicdTyper
  let itLinesField := (typer &&& 0x1f).toNat
  let irqCount := (itLinesField + 1) * 32
  -- disable the shared lines; the register of the processor's own lines is left alone
  let _ ← Prog.loop (fun n => n * 32 < irqCount) (fun n => do
    writeDistributor (gicdIcenablerBase + n * 4) 0xffffffff
    pure (n + 1)) (irqCount + 1) 1
  writeSpiBytes gicdIpriorityrBase irqCount (replicated defaultPriorityByte)
  writeSpiBytes gicdItargetsrBase irqCount (replicated targetCpu0Byte)
  writeDistributor gicdCtlr 1
  writeCpuInterface giccPmr 0xff
  writeCpuInterface giccCtlr 1

/-- The message of a line number past the architectural maximum. -/
def irqMessage (function : String) (irq : BitVec 32) : String :=
  let number := irq.toNat
  let max := gicMaxIrq.toNat
  s!"QemuVirtGic::{function}: irq.0 = {number} exceeds GICv2 architectural max {max}"

def irqBit (n : ℕ) : BitVec 32 := (1 : BitVec 32) <<< (n % 32)

def enable (irq : BitVec 32) : IrqM ε Unit := do
  assertThat (irq < gicMaxIrq) (irqMessage "enable" irq)
  let n := irq.toNat
  writeDistributor (gicdIsenablerBase + n / 32 * 4) (irqBit n)

def disable (irq : BitVec 32) : IrqM ε Unit := do
  assertThat (irq < gicMaxIrq) (irqMessage "disable" irq)
  let n := irq.toNat
  writeDistributor (gicdIcenablerBase + n / 32 * 4) (irqBit n)

def acknowledge : IrqM ε (Option (BitVec 32)) := do
  let raw ← readCpuInterface giccIar
  let intid := raw &&& giccIarIntidMask
  pure (if intid = gicSpuriousIntid then none else some intid)

def endOfInterrupt (irq : BitVec 32) : IrqM ε Unit := writeCpuInterface giccEoir irq

end QemuVirtGic

/-! ## The processor -/

/-- The processor handle: the counter's frequency was checked when it was made. -/
structure QemuVirtCpu where
  frequencyHz : BitVec 64
  resolutionNs : BitVec 64
  frequencyHz_ne_zero : frequencyHz ≠ 0

def resolutionNsForFreq (frequencyHz : BitVec 64) : Prog IrqCore ε (BitVec 64) := do
  assertThat (frequencyHz ≠ 0)
    ("resolution_ns_for_freq: frequency_hz must be > 0 (BSP must validate CNTFRQ_EL0 / " ++
      "equivalent at boot)")
  let raw := (nanosPerSecond + frequencyHz / 2) / frequencyHz
  pure (if raw = 0 then 1 else raw)

namespace QemuVirtCpu

/-- `QemuVirtCpu::new` at the given exception level, with the frequency register's value. -/
def new (currentEl : Fin 4) (cntfrq : BitVec 64) : IrqM ε QemuVirtCpu := do
  let el := currentEl.val
  assertThat (currentEl = 1)
    (s!"QemuVirtCpu::new must run at EL1 per ADR-0012/ADR-0024; observed EL{el} instead")
  if h : cntfrq ≠ 0 then do
    let resolutionNs ← resolutionNsForFreq cntfrq
    pure ⟨cntfrq, resolutionNs, h⟩
  else .panic (.assertion
    "CNTFRQ_EL0 reads as zero — firmware/emulator did not initialise the generic timer")

def writeCntvCval (value : BitVec 64) : IrqM ε Unit :=
  Prog.modify fun c => { c with timer := { c.timer with cval := value } }

def writeCntvCtl (value : BitVec 64) : IrqM ε Unit :=
  Prog.modify fun c => { c with timer := { c.timer with ctl := value } }

def nowNs (cpu : QemuVirtCpu) : IrqM ε (BitVec 64) := do
  ticksToNs (← Prog.get).timer.count cpu.frequencyHz

def armDeadline (cpu : QemuVirtCpu) (deadlineNs : BitVec 64) : IrqM ε Unit := do
  let targetTicks ← nsToTicks deadlineNs cpu.frequencyHz
  writeCntvCval targetTicks
  writeCntvCtl 1
  QemuVirtGic.enable timerIrq

def cancelDeadline : IrqM ε Unit := do
  writeCntvCtl 2
  QemuVirtGic.disable timerIrq

/-- The four mask bits of `DAIF`. -/
def daifBits : BitVec 64 := 0x3c0

def disableIrqs : IrqM ε (BitVec 64) := do
  let c ← Prog.get
  Prog.modify fun c => { c with daif := c.daif ||| daifBits }
  pure c.daif

def restoreIrqState (state : BitVec 64) : IrqM ε Unit :=
  Prog.modify fun c => { c with daif := state &&& daifBits }

end QemuVirtCpu

/-- The interrupt handler. -/
def irqEntry : IrqM ε Unit := do
  match ← QemuVirtGic.acknowledge with
  | none => pure ()
  | some irq =>
    if irq = timerIrq then do
      QemuVirtCpu.writeCntvCtl 2
      QemuVirtGic.endOfInterrupt irq
    else do
      let unhandled := irq.toNat
      QemuVirtGic.endOfInterrupt irq
      .panic (.explicit s!"irq_entry: unhandled IRQ {unhandled}")

/-- The end of boot: initialise the controller, then unmask interrupts (`daifclr, #0x2`). -/
def startInterrupts : IrqM ε Unit := do
  QemuVirtGic.init
  Prog.modify fun c => { c with daif := c.daif &&& ~~~0x80 }

/-! ## The processor handle -/

section Handle

variable {c : IrqCore}

/-- The resolution is never zero. -/
theorem resolutionNsForFreq_pos {f : BitVec 64} (hf : f ≠ 0) :
    ∃ ns, (resolutionNsForFreq f : Prog IrqCore ε (BitVec 64)) = pure ns ∧ ns ≠ 0 := by
  unfold resolutionNsForFreq
  rw [assertThat_pos hf]
  refine ⟨_, rfl, ?_⟩
  split
  · decide
  · assumption

/-- At EL1 and with a frequency there is a handle. -/
theorem QemuVirtCpu.new_run {cntfrq : BitVec 64} (hf : cntfrq ≠ 0) :
    ∃ cpu : QemuVirtCpu, (QemuVirtCpu.new 1 cntfrq : IrqM ε QemuVirtCpu).run c = .ok cpu c ∧
      cpu.frequencyHz = cntfrq ∧ cpu.resolutionNs ≠ 0 := by
  obtain ⟨ns, hns, hpos⟩ := resolutionNsForFreq_pos (ε := ε) hf
  refine ⟨⟨cntfrq, ns, hf⟩, ?_, rfl, hpos⟩
  unfold QemuVirtCpu.new
  rw [dif_pos hf, hns]
  rfl

theorem QemuVirtCpu.nowNs_run (cpu : QemuVirtCpu) :
    (cpu.nowNs : IrqM ε (BitVec 64)).run c = .ok (nsOf cpu.frequencyHz c.timer.count) c := by
  unfold QemuVirtCpu.nowNs
  rw [Prog.get_bind_run, ticksToNs_eq cpu.frequencyHz_ne_zero, Prog.pure_run]

end Handle

/-! ## Register writes -/

section Writes

variable {c : IrqCore} {n : ℕ}

theorem writeDistributor_ok {offset : ℕ} {value : BitVec 32} {gic : Gic.Device}
    (h : c.gic.writeDistributor offset value = some gic) :
    (QemuVirtGic.writeDistributor offset value : IrqM ε Unit).run c = .ok () { c with gic } := by
  unfold QemuVirtGic.writeDistributor
  simp [h]

theorem irqBit_covers {m : ℕ} : Gic.Device.covers (n / 32) m (QemuVirtGic.irqBit n) =
    decide (m = n) := by
  unfold Gic.Device.covers QemuVirtGic.irqBit
  have hlt : m % 32 < 32 := Nat.mod_lt _ (by decide)
  rw [BitVec.getLsbD_shiftLeft]
  by_cases hm : m = n
  · subst hm
    simp [hlt]
  · have hne : ¬ (m / 32 = n / 32 ∧ m % 32 = n % 32) := by omega
    by_cases hdiv : m / 32 = n / 32
    · have hmod : m % 32 ≠ n % 32 := fun hmod => hne ⟨hdiv, hmod⟩
      simp [hm, hdiv, BitVec.getLsbD_one]
      omega
    · simp [hm, hdiv]

/-- `enable` switches on the line, if the controller has it, and no other. -/
theorem enable_run (irq : BitVec 32) (hirq : irq < gicMaxIrq) :
    (QemuVirtGic.enable irq : IrqM ε Unit).run c = .ok () { c with
      gic := { c.gic with
        enabled := fun m => c.gic.enabled m || (m = irq.toNat && c.gic.Implements m) } } := by
  have hlt : irq.toNat < 1020 := hirq
  unfold QemuVirtGic.enable
  rw [assertThat_pos hirq]
  refine writeDistributor_ok ?_
  unfold Gic.Device.writeDistributor gicdIsenablerBase
  rw [if_neg (by omega), if_neg (by omega), if_pos (by omega)]
  have hregister : (0x100 + irq.toNat / 32 * 4 - 0x100) / 4 = irq.toNat / 32 := by omega
  rw [hregister]
  simp only [irqBit_covers]

/-- `disable` switches off the line and no other. -/
theorem disable_run (irq : BitVec 32) (hirq : irq < gicMaxIrq) :
    (QemuVirtGic.disable irq : IrqM ε Unit).run c = .ok () { c with
      gic := { c.gic with
        enabled := fun m => c.gic.enabled m && !(m = irq.toNat && c.gic.Implements m) } } := by
  have hlt : irq.toNat < 1020 := hirq
  unfold QemuVirtGic.disable
  rw [assertThat_pos hirq]
  refine writeDistributor_ok ?_
  unfold Gic.Device.writeDistributor gicdIcenablerBase
  rw [if_neg (by omega), if_neg (by omega), if_neg (by omega), if_pos (by omega)]
  have hregister : (0x180 + irq.toNat / 32 * 4 - 0x180) / 4 = irq.toNat / 32 := by omega
  rw [hregister]
  simp only [irqBit_covers]

/-- A deadline is programmed as a count of ticks. -/
theorem programDeadline_run (targetTicks : BitVec 64) : (do
    QemuVirtCpu.writeCntvCval targetTicks
    QemuVirtCpu.writeCntvCtl 1
    QemuVirtGic.enable timerIrq : IrqM ε Unit).run c = .ok () { c with
      timer := { c.timer with cval := targetTicks, ctl := 1 }
      gic := { c.gic with
        enabled := fun m =>
          c.gic.enabled m || (m = timerIrq.toNat && c.gic.Implements m) } } := by
  unfold QemuVirtCpu.writeCntvCval QemuVirtCpu.writeCntvCtl
  rw [Prog.modify_bind_run, Prog.modify_bind_run, enable_run timerIrq (by decide)]

/-- The conversion of a deadline succeeds. -/
theorem armDeadline_eq (cpu : QemuVirtCpu) (deadlineNs : BitVec 64) :
    (cpu.armDeadline deadlineNs : IrqM ε Unit) = (do
      QemuVirtCpu.writeCntvCval (ticksOf cpu.frequencyHz deadlineNs)
      QemuVirtCpu.writeCntvCtl 1
      QemuVirtGic.enable timerIrq) := by
  unfold QemuVirtCpu.armDeadline
  rw [nsToTicks_eq cpu.frequencyHz_ne_zero]
  rfl

/-- `arm_deadline` programs the first count whose time has reached the deadline. -/
theorem armDeadline_run (cpu : QemuVirtCpu) (deadlineNs : BitVec 64) :
    (cpu.armDeadline deadlineNs : IrqM ε Unit).run c = .ok () { c with
      timer := { c.timer with cval := ticksOf cpu.frequencyHz deadlineNs, ctl := 1 }
      gic := { c.gic with
        enabled := fun m =>
          c.gic.enabled m || (m = timerIrq.toNat && c.gic.Implements m) } } := by
  rw [armDeadline_eq, programDeadline_run]

theorem cancelDeadline_run : (QemuVirtCpu.cancelDeadline : IrqM ε Unit).run c = .ok () { c with
    timer := { c.timer with ctl := 2 }
    gic := { c.gic with
      enabled := fun m =>
        c.gic.enabled m && !(m = timerIrq.toNat && c.gic.Implements m) } } := by
  unfold QemuVirtCpu.cancelDeadline QemuVirtCpu.writeCntvCtl
  rw [Prog.modify_bind_run, disable_run timerIrq (by decide)]

end Writes

/-! ## Initialisation -/

/-- A loop that counts up in steps of `k` and takes the state from one member of a family to
the next. -/
theorem stride_run {σ ε : Type} (F : ℕ → σ) {cond : ℕ → Prop} [DecidablePred cond]
    {step : ℕ → Prog σ ε ℕ} {start k m fuel : ℕ}
    (hstep : ∀ i < m, (step (start + k * i)).run (F i) = .ok (start + k * (i + 1)) (F (i + 1)))
    (hcond : ∀ i ≤ m, cond (start + k * i) ↔ i < m) (hfuel : m < fuel) :
    (Prog.loop cond step fuel start).run (F 0) = .ok (start + k * m) (F m) := by
  suffices hgen : ∀ n i fuel, i + n = m → n < fuel →
      (Prog.loop cond step fuel (start + k * i)).run (F i) = .ok (start + k * m) (F m) from
    hgen m 0 fuel (Nat.zero_add m) hfuel
  intro n
  induction n with
  | zero =>
    intro i fuel hi hfuel
    obtain ⟨fuel, rfl⟩ := Nat.exists_eq_add_of_lt hfuel
    unfold Prog.loop
    rw [if_neg (by rw [hcond i (by omega)]; omega)]
    obtain rfl : i = m := by omega
    rfl
  | succ n ih =>
    intro i fuel hi hfuel
    obtain ⟨fuel, rfl⟩ := Nat.exists_eq_add_of_lt hfuel
    unfold Prog.loop
    rw [if_pos ((hcond i (by omega)).mpr (by omega)), Prog.bind_ok (hstep i (by omega))]
    exact ih (i + 1) _ (by omega) (by omega)

section Init

variable {c : IrqCore}

/-- The shared lines below `stop` that the controller has. -/
def Shared (d : Gic.Device) (stop n : ℕ) : Prop := firstSpi ≤ n ∧ n < stop ∧ d.Implements n

instance (d : Gic.Device) (stop n : ℕ) : Decidable (Shared d stop n) :=
  inferInstanceAs (Decidable (_ ∧ _))

/-- The controller as `init` leaves it: every shared line is disabled, has the default
priority and targets the processor, and both halves forward. -/
def initialised (d : Gic.Device) : Gic.Device := { d with
  distributor := 1
  interface := 1
  mask := 0xff
  enabled := fun n => d.enabled n && !(Shared d d.lineCount n)
  priority := fun n => if Shared d d.lineCount n then 0xa0 else d.priority n
  targets := fun n => if Shared d d.lineCount n then 0x01 else d.targets n }

theorem lineCount_le (d : Gic.Device) : d.lineCount ≤ 1024 := by
  have hle : (d.typer &&& 0x1f).toNat ≤ 0x1f := by
    rw [BitVec.toNat_and]
    exact Nat.and_le_right
  unfold Gic.Device.lineCount
  omega

/-- One more register of disabled lines. -/
theorem writeDistributor_disable {d : Gic.Device} {n : ℕ} (hn : n < 32) :
    d.writeDistributor (gicdIcenablerBase + n * 4) 0xffffffff = some { d with
      enabled := fun k => d.enabled k && !(k / 32 = n && d.Implements k) } := by
  unfold Gic.Device.writeDistributor gicdIcenablerBase
  rw [if_neg (by omega), if_neg (by omega), if_neg (by omega), if_pos (by omega)]
  have hregister : (0x180 + n * 4 - 0x180) / 4 = n := by omega
  have hcovers : ∀ k, Gic.Device.covers n k 0xffffffff = decide (k / 32 = n) := by
    intro k
    unfold Gic.Device.covers
    rw [show (0xffffffff : BitVec 32) = BitVec.allOnes 32 from rfl, BitVec.getLsbD_allOnes,
      decide_eq_true (Nat.mod_lt _ (by decide)), Bool.and_true]
  rw [hregister]
  simp only [hcovers]

theorem byteOf_replicated (byte : BitVec 32) (b : BitVec 8)
    (hbyte : ∀ r < 4, (QemuVirtGic.replicated byte).extractLsb' (8 * r) 8 = b) (n : ℕ) :
    Gic.Device.byteOf n (QemuVirtGic.replicated byte) = b :=
  hbyte _ (Nat.mod_lt _ (by decide))

/-- A table of the controller with one byte for each line. -/
structure ByteTable where
  get : Gic.Device → ℕ → BitVec 8
  set : Gic.Device → (ℕ → BitVec 8) → Gic.Device
  get_set : ∀ d bytes, get (set d bytes) = bytes
  set_get : ∀ d, set d (get d) = d
  set_set : ∀ d bytes bytes', set (set d bytes) bytes' = set d bytes'
  typer_set : ∀ d bytes, (set d bytes).typer = d.typer

def priorities : ByteTable :=
  ⟨(·.priority), fun d priority => { d with priority }, fun _ _ => rfl, fun _ => rfl,
    fun _ _ _ => rfl, fun _ _ => rfl⟩

def targets : ByteTable :=
  ⟨(·.targets), fun d targets => { d with targets }, fun _ _ => rfl, fun _ => rfl,
    fun _ _ _ => rfl, fun _ _ => rfl⟩

/-- A word of the table at `base` sets the bytes of four shared lines to `b`. -/
def WritesFour (t : ByteTable) (base : ℕ) (word : BitVec 32) (b : BitVec 8) : Prop :=
  ∀ (d : Gic.Device) (n : ℕ), firstSpi ≤ n → n < 1024 → n % 4 = 0 →
    d.writeDistributor (base + n) word =
      some (t.set d fun k => if k / 4 = n / 4 ∧ d.Implements k then b else t.get d k)

theorem priorities_writesFour : WritesFour priorities gicdIpriorityrBase
    (QemuVirtGic.replicated defaultPriorityByte) 0xa0 := by
  intro d n _ hn h4
  unfold Gic.Device.writeDistributor gicdIpriorityrBase
  rw [if_neg (by omega), if_neg (by omega), if_neg (by omega), if_neg (by omega),
    if_pos (by omega), Nat.add_sub_cancel_left]
  simp only [byteOf_replicated defaultPriorityByte 0xa0 (by decide)]
  rfl

theorem targets_writesFour : WritesFour targets gicdItargetsrBase
    (QemuVirtGic.replicated targetCpu0Byte) 0x01 := by
  intro d n h32 hn h4
  unfold firstSpi at h32
  unfold Gic.Device.writeDistributor gicdItargetsrBase
  rw [if_neg (by omega), if_neg (by omega), if_neg (by omega), if_neg (by omega),
    if_neg (by omega), if_pos (by omega), Nat.add_sub_cancel_left]
  simp only [byteOf_replicated targetCpu0Byte 0x01 (by decide)]
  have hshared : ∀ k, k / 4 = n / 4 ∧ Gic.firstShared ≤ k ∧ d.Implements k ↔
      k / 4 = n / 4 ∧ d.Implements k := by
    intro k
    constructor
    · rintro ⟨hdiv, _, himp⟩
      exact ⟨hdiv, himp⟩
    · rintro ⟨hdiv, himp⟩
      exact ⟨hdiv, by unfold Gic.firstShared; omega, himp⟩
  simp only [hshared]
  rfl

/-- The loop over the enable registers. -/
theorem disableSpis_run (c : IrqCore) {count : ℕ} (hcount : count = c.gic.lineCount) :
    (Prog.loop (fun n => n * 32 < count) (fun n => do
      QemuVirtGic.writeDistributor (gicdIcenablerBase + n * 4) 0xffffffff
      pure (n + 1)) (count + 1) 1 : IrqM ε ℕ).run c = .ok (count / 32) { c with
        gic := { c.gic with
          enabled := fun k => c.gic.enabled k && !(Shared c.gic c.gic.lineCount k) } } := by
  subst hcount
  obtain ⟨m, hm⟩ : ∃ m, c.gic.lineCount = 32 * (m + 1) := ⟨_, rfl⟩
  have hle := lineCount_le c.gic
  let F : ℕ → IrqCore := fun i => { c with
    gic := { c.gic with
      enabled := fun k => c.gic.enabled k && !(Shared c.gic (32 * (i + 1)) k) } }
  have hstart : F 0 = c := by
    have hnone : ∀ k, ¬ Shared c.gic (32 * (0 + 1)) k := by
      rintro k ⟨hlow, hhigh, _⟩
      unfold firstSpi at hlow
      omega
    simp only [F, hnone]
    simp
  refine (congrArg _ hstart.symm).trans ((stride_run F (k := 1) (m := m) ?_ ?_ ?_).trans ?_)
  · intro i hi
    have hwrite := writeDistributor_disable (d := (F i).gic) (n := 1 + 1 * i) (by omega)
    refine (Prog.bind_ok (writeDistributor_ok hwrite)).trans ?_
    have hnext : { F i with gic := { (F i).gic with
        enabled := fun k => (F i).gic.enabled k && !(k / 32 = 1 + 1 * i && c.gic.Implements k) } } =
        F (i + 1) := by
      simp only [F, IrqCore.mk.injEq, Gic.Device.mk.injEq, and_true, true_and]
      funext k
      rw [Bool.and_assoc, ← Bool.not_or]
      congr 2
      rw [← Bool.decide_and, ← Bool.decide_or]
      apply decide_eq_decide.mpr
      unfold Shared firstSpi
      constructor
      · rintro (⟨hlow, hhigh, himp⟩ | ⟨hdiv, himp⟩)
        · exact ⟨hlow, by omega, himp⟩
        · exact ⟨by omega, by omega, himp⟩
      · rintro ⟨hlow, hhigh, himp⟩
        by_cases hlast : k < 32 * (i + 1)
        · exact Or.inl ⟨hlow, hlast, himp⟩
        · exact Or.inr ⟨by omega, himp⟩
    exact congrArg _ hnext
  · intro i hi
    omega
  · omega
  · simp only [F, ← hm]
    congr 1
    omega

/-- The loop over one of the two tables with a byte for each line. -/
theorem writeSpiBytes_run {t : ByteTable} {base count : ℕ} {word : BitVec 32} {b : BitVec 8}
    (hwrites : WritesFour t base word b) (c : IrqCore) (hcount : count = c.gic.lineCount) :
    (QemuVirtGic.writeSpiBytes base count word : IrqM ε Unit).run c = .ok () { c with
      gic := t.set c.gic fun k =>
        if Shared c.gic c.gic.lineCount k then b else t.get c.gic k } := by
  subst hcount
  obtain ⟨m, hm⟩ : ∃ m, c.gic.lineCount = 32 + 4 * (8 * m) :=
    ⟨(c.gic.typer &&& 0x1f).toNat, by unfold Gic.Device.lineCount; omega⟩
  have hle := lineCount_le c.gic
  let F : ℕ → IrqCore := fun i => { c with
    gic := t.set c.gic fun k => if Shared c.gic (32 + 4 * i) k then b else t.get c.gic k }
  have hstart : F 0 = c := by
    have hnone : ∀ k, ¬ Shared c.gic (32 + 4 * 0) k := by
      rintro k ⟨hlow, hhigh, _⟩
      unfold firstSpi at hlow
      omega
    simp only [F, hnone, if_false]
    rw [t.set_get]
  have himp : ∀ bytes k, (t.set c.gic bytes).Implements k ↔ c.gic.Implements k := by
    intro bytes k
    unfold Gic.Device.Implements Gic.Device.lineCount
    rw [t.typer_set]
  refine Prog.bind_ok ((congrArg _ hstart.symm).trans
    (stride_run F (k := 4) (m := 8 * m) (fun i hi => ?_) (fun i hi => ?_) (by omega))) |>.trans ?_
  · have hwrite := hwrites (F i).gic (32 + 4 * i) (by unfold firstSpi; omega) (by omega) (by omega)
    refine (Prog.bind_ok (writeDistributor_ok hwrite)).trans ?_
    have hnext : t.set (F i).gic (fun k =>
        if k / 4 = (32 + 4 * i) / 4 ∧ (F i).gic.Implements k then b else t.get (F i).gic k) =
        (F (i + 1)).gic := by
      simp only [F, t.set_set, t.get_set, himp]
      congr 1
      funext k
      have hiff : Shared c.gic (32 + 4 * (i + 1)) k ↔
          k / 4 = (32 + 4 * i) / 4 ∧ c.gic.Implements k ∨ Shared c.gic (32 + 4 * i) k := by
        unfold Shared firstSpi
        constructor
        · rintro ⟨hlow, hhigh, hk⟩
          by_cases hlast : k < 32 + 4 * i
          · exact Or.inr ⟨hlow, hlast, hk⟩
          · exact Or.inl ⟨by omega, hk⟩
        · rintro (⟨hdiv, hk⟩ | ⟨hlow, hhigh, hk⟩)
          · exact ⟨by omega, by omega, hk⟩
          · exact ⟨hlow, by omega, hk⟩
      by_cases hnew : k / 4 = (32 + 4 * i) / 4 ∧ c.gic.Implements k
      · rw [if_pos hnew, if_pos (hiff.mpr (Or.inl hnew))]
      · rw [if_neg hnew]
        exact if_congr (hiff.trans (or_iff_right hnew)).symm rfl rfl
    rw [hnext]
    rfl
  · unfold firstSpi
    omega
  · show Result.ok () (F (8 * m)) = _
    simp only [F]
    rw [hm]

/-- `init` runs through, whatever number of lines the controller has. -/
theorem init_run (c : IrqCore) :
    (QemuVirtGic.init : IrqM ε Unit).run c = .ok () { c with gic := initialised c.gic } := by
  have hcount : (((c.gic.typer &&& 0x1f).toNat + 1) * 32) = c.gic.lineCount := Nat.mul_comm _ _
  have hoff : (QemuVirtGic.writeDistributor gicdCtlr 0 : IrqM ε Unit).run c =
      .ok () { c with gic := { c.gic with distributor := 0 } } := rfl
  unfold QemuVirtGic.init
  refine (Prog.bind_ok hoff).trans ((Prog.bind_ok (a := c.gic.typer) rfl).trans ?_)
  have hdisable := disableSpis_run (ε := ε) { c with gic := { c.gic with distributor := 0 } } hcount
  refine (Prog.bind_ok hdisable).trans ?_
  refine Eq.trans (Prog.bind_ok (writeSpiBytes_run priorities_writesFour _ ?_)) ?_
  · exact hcount
  refine Eq.trans (Prog.bind_ok (writeSpiBytes_run targets_writesFour _ ?_)) ?_
  · exact hcount
  rfl

end Init

end Tyrne
