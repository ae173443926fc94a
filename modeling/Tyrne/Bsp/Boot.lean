import Tyrne.Bsp.MmuBootstrap
import Tyrne.Library.A64

/-!
# Start-up

The listing of `boot.s`, from reset to the call of `kernel_entry`: it masks exceptions, drops
from EL2 to EL1 where it has to, sets the stack pointer, and zeroes `.bss`, on which the boot
tables rely. At any other exception level it halts.
-/

namespace Tyrne

open A64

/-- The symbols of the linker script that the listing uses, and its label `post_eret`. -/
structure BootSymbols where
  postEret : Word
  stackTop : Word
  bssStart : Word
  bssEnd : Word

/-- `.bss` is aligned at both ends. -/
structure BootSymbols.Linked (sym : BootSymbols) : Prop where
  bssStart_aligned : sym.bssStart.toNat % 8 = 0
  bssEnd_aligned : sym.bssEnd.toNat % 8 = 0
  le : sym.bssStart.toNat ≤ sym.bssEnd.toNat

/-- The labels; `zero`, `one` and `two` are the local labels `0`, `1` and `2`. -/
inductive BootLabel
  | haltUnsupportedEl
  | el2ToEl1
  | postEret
  | zero
  | one
  | two
  deriving DecidableEq, Repr

/-- The one function that is called. -/
inductive BootCall
  | kernelEntry
  deriving DecidableEq, Repr

/-- The block from the label `post_eret` to the loop over `.bss`. -/
def setUp (sym : BootSymbols) : List Instr := [
  -- (3) Set the stack pointer.
  .adr 0 sym.stackTop,
  .mov .sp (.x 0),
  -- (4) Enable FP/SIMD at EL1 and EL0.
  .movImm 0 0x300000,
  .msr .cpacrEl1 0,
  .isb,
  -- (5) Zero BSS.
  .adr 0 sym.bssStart,
  .adr 1 sym.bssEnd]

/-- The block that goes from EL2 to EL1. -/
def dropToEl1 (sym : BootSymbols) : List Instr := [
  .movImm 0 0x80000000,
  .msr .hcrEl2 0,
  .movImm 0 0x3c5,
  .msr .spsrEl2 0,
  .adr 0 sym.postEret,
  .msr .elrEl2 0]

def start (sym : BootSymbols) : List (Line BootLabel BootCall) := [
  .op (.daifSet 0xf),
  .op (.mrs 0 .currentEl),
  .op (.and 0 0 12),
  .op (.cmpImm 0 8),
  .bCond .eq .el2ToEl1,
  .op (.cmpImm 0 4),
  .bCond .eq .postEret,
  .label .haltUnsupportedEl,
  .op .wfe,
  .b .haltUnsupportedEl,
  .label .el2ToEl1] ++
  ((dropToEl1 sym).map .op ++
  [.eret .elrEl2 .spsrEl2,
  .label .postEret] ++
  ((setUp sym).map .op ++
  [.label .zero,
  .op (.cmp 0 1),
  .bCond .hs .one,
  .op (.strZeroPost 0 8),
  .b .zero,
  .label .one,
  -- (6) Hand control to Rust.
  .bl .kernelEntry,
  .label .two,
  .op .wfe,
  .b .two]))

section Start

variable {ω : Type} {sym : BootSymbols} {call : BootCall → State ω → Option (State ω)}
  {s s' : State ω}

/-- The status of EL1 on the stack pointer of the level, with all exceptions masked. -/
structure AtEl1 (p : Word) : Prop where
  el : el p = 1
  spSel : spSel p = true
  masked : ∀ i, 6 ≤ i → i < 10 → p.getLsbD i = true

theorem AtEl1.spIndex (h : AtEl1 s.pstate) : s.spIndex = 1 := by
  rw [State.spIndex, h.spSel, if_pos rfl, h.el]

theorem AtEl1.cmp {p : Word} (h : AtEl1 p) (a b : Word) : AtEl1 (compare p a b) where
  el := by rw [el_compare, h.el]
  spSel := by rw [spSel_compare, h.spSel]
  masked i hlow hhigh := by rw [compare_low (by omega), h.masked i hlow hhigh]

/-- What the first block leaves, with the exception level it found. -/
structure Dispatched (s s' : State ω) : Prop where
  el : A64.el s'.pstate = A64.el s.pstate
  spSel : A64.spSel s'.pstate = A64.spSel s.pstate
  masked : ∀ i, 6 ≤ i → i < 10 → s'.pstate.getLsbD i = true
  mem : s'.mem = s.mem
  world : s'.world = s.world

theorem daifSet_high {p : Word} {i : ℕ} (hlow : 6 ≤ i) (hhigh : i < 10) :
    (p ||| ((0xf : BitVec 4).setWidth 64 <<< 6)).getLsbD i = true := by
  rw [BitVec.getLsbD_or]
  interval_cases i <;> simp

theorem daifSet_low {p : Word} {i : ℕ} (hi : i < 6) :
    (p ||| ((0xf : BitVec 4).setWidth 64 <<< 6)).getLsbD i = p.getLsbD i := by
  rw [BitVec.getLsbD_or]
  interval_cases i <;> simp

/-- Where the listing goes on, by the exception level. -/
def bootLabelOf (e : Fin 4) : BootLabel :=
  if e = 2 then .el2ToEl1 else if e = 1 then .postEret else .haltUnsupportedEl

theorem currentEl_masked (e : Fin 4) :
    BitVec.ofNat 64 (4 * e.val) &&& (12 : Word) = BitVec.ofNat 64 (4 * e.val) := by
  revert e
  decide

theorem Dispatched.cmpImm (h : Dispatched s s') (n : Reg) (imm : Word) :
    Dispatched s { s' with pstate := compare s'.pstate (s'.x n) imm } where
  el := by rw [el_compare, h.el]
  spSel := by rw [spSel_compare, h.spSel]
  masked i hlow hhigh := by rw [compare_low (by omega), h.masked i hlow hhigh]
  mem := h.mem
  world := h.world

/-- The listing reads the exception level, and goes on at the label for it. -/
theorem dispatch_leads (sym : BootSymbols) (call : BootCall → State ω → Option (State ω))
    (s : State ω) : ∃ s', Dispatched s s' ∧
    Leads (start sym) call (.at (start sym) s)
      (.at (after (start sym) (bootLabelOf (el s.pstate))) s') := by
  obtain ⟨s₁, hs₁⟩ : ∃ s₁ : State ω, s₁ = { s with
    x := Function.update s.x 0 (BitVec.ofNat 64 (4 * (el s.pstate).val))
    pstate := s.pstate ||| ((0xf : BitVec 4).setWidth 64 <<< 6) } := ⟨_, rfl⟩
  have hel : el (s.pstate ||| ((0xf : BitVec 4).setWidth 64 <<< 6)) = el s.pstate := by
    unfold el
    rw [daifSet_low (by decide), daifSet_low (by decide)]
  have hdispatched : Dispatched s s₁ := by
    rw [hs₁]
    exact ⟨hel, daifSet_low (by decide), fun i hlow hhigh => daifSet_high hlow hhigh, rfl, rfl⟩
  have hx : s₁.x 0 = BitVec.ofNat 64 (4 * (el s.pstate).val) := by
    rw [hs₁]
    simp
  have hread : execAll [.daifSet 0xf, .mrs 0 .currentEl, .and 0 0 12] s = some s₁ := by
    rw [hs₁]
    simp only [execAll, Instr.exec, Option.bind_some, State.setX, State.readSys, hel,
      Function.update_self, Function.update_idem, currentEl_masked]
  -- the two comparisons
  have hfirst : Leads (start sym) call (.at (start sym) s)
      (.at (.bCond .eq .el2ToEl1 :: .op (.cmpImm 0 4) :: .bCond .eq .postEret ::
        .label .haltUnsupportedEl :: after (start sym) .haltUnsupportedEl)
        { s₁ with pstate := compare s₁.pstate (s₁.x 0) 8 }) :=
    (Leads.block hread).trans (Leads.block (l := [.cmpImm 0 8]) rfl)
  have hfirst' := hdispatched.cmpImm 0 8
  by_cases h2 : el s.pstate = 2
  · refine ⟨_, hfirst', hfirst.trans ?_⟩
    have htaken : bootLabelOf (el s.pstate) = .el2ToEl1 := if_pos h2
    rw [htaken]
    refine Leads.taken _ ?_
    show zero (compare _ _ _) = true
    rw [zero_compare, hx, h2]
    rfl
  have hne : Cond.eq.holds (compare s₁.pstate (s₁.x 0) 8) = false := by
    show zero (compare _ (s₁.x 0) _) = false
    rw [zero_compare, hx]
    generalize el s.pstate = e at h2
    revert e
    decide
  have hsecond := hfirst.trans ((Leads.notTaken
    (s := { s₁ with pstate := compare s₁.pstate (s₁.x 0) 8 }) _ hne).trans
    (Leads.block (l := [.cmpImm 0 4]) rfl))
  have hsecond' := hfirst'.cmpImm 0 4
  by_cases h1 : el s.pstate = 1
  · refine ⟨_, hsecond', hsecond.trans ?_⟩
    have htaken : bootLabelOf (el s.pstate) = .postEret := (if_neg h2).trans (if_pos h1)
    rw [htaken]
    refine Leads.taken _ ?_
    show zero (compare _ (s₁.x 0) _) = true
    rw [zero_compare, hx, h1]
    rfl
  · refine ⟨_, hsecond', hsecond.trans ?_⟩
    have hhalt : bootLabelOf (el s.pstate) = .haltUnsupportedEl := (if_neg h2).trans (if_neg h1)
    rw [hhalt]
    refine (Leads.notTaken BootLabel.postEret ?_).trans (Leads.label _)
    show zero (compare _ (s₁.x 0) _) = false
    rw [zero_compare, hx]
    generalize el s.pstate = e at h1
    revert e
    decide

/-- What the rest of the listing needs: EL1, exceptions masked, and the memory of the reset. -/
theorem postEret_flows (sym : BootSymbols) (call : BootCall → State ω → Option (State ω))
    (hel : el s.pstate = 1 ∧ spSel s.pstate = true ∨ el s.pstate = 2) :
    ∃ s', Flows (start sym) call (fun _ => sym.postEret) (.at (start sym) s)
      (.at (after (start sym) .postEret) s') ∧ AtEl1 s'.pstate ∧ s'.mem = s.mem ∧
      s'.world = s.world := by
  obtain ⟨s₁, hdispatched, hreach⟩ := dispatch_leads sym call s
  rcases hel with ⟨hel, hspSel⟩ | hel
  · have hlabel : bootLabelOf (el s.pstate) = .postEret := by
      rw [hel]
      rfl
    rw [hlabel] at hreach
    exact ⟨s₁, Flows.of_leads hreach, ⟨hdispatched.el.trans hel, hdispatched.spSel.trans hspSel,
      hdispatched.masked⟩, hdispatched.mem, hdispatched.world⟩
  · have hlabel : bootLabelOf (el s.pstate) = .el2ToEl1 := by
      rw [hel]
      rfl
    rw [hlabel] at hreach
    obtain ⟨s₂, hblock, helr, hspsr, hmem, hworld⟩ : ∃ s₂,
        execAll (dropToEl1 sym) s₁ = some s₂ ∧ s₂.sys .elrEl2 = sym.postEret ∧
          s₂.sys .spsrEl2 = 0x3c5 ∧ s₂.mem = s₁.mem ∧ s₂.world = s₁.world :=
      ⟨_, rfl, rfl, rfl, rfl, rfl⟩
    have hpstate : (s₂.returned .spsrEl2).pstate = 0x3c5 := hspsr
    have heret : Leads (start sym) call (.at (after (start sym) .el2ToEl1) s₁)
        (.exit (.goto sym.postEret (s₂.returned .spsrEl2))) := by
      rw [← helr]
      exact (Leads.block hblock).trans (Leads.eret .elrEl2 .spsrEl2)
    refine ⟨s₂.returned .spsrEl2, (Flows.of_leads (hreach.trans heret)).trans
      (Flows.lands BootLabel.postEret _), ⟨?_, ?_, fun i hlow hhigh => ?_⟩,
      hmem.trans hdispatched.mem, hworld.trans hdispatched.world⟩
    · rw [hpstate]
      rfl
    · rw [hpstate]
      rfl
    · rw [hpstate]
      interval_cases i <;> rfl

/-! ## The loop over BSS -/

/-- The memory with zeroes from `lo` to `hi`. -/
def zeroed (m : Word → Word) (lo hi : Word) : Word → Word :=
  fun a => if lo ≤ a ∧ a < hi ∧ a.toNat % 8 = 0 then 0 else m a

theorem zeroed_empty {m : Word → Word} {lo hi : Word} (h : hi ≤ lo) : zeroed m lo hi = m := by
  funext a
  unfold zeroed
  simp only [BitVec.le_def, BitVec.lt_def] at h ⊢
  exact if_neg (by omega)

/-- One turn more: the doubleword at `lo` is zero as well. -/
theorem zeroed_step {m : Word → Word} {lo hi : Word} (haligned : lo.toNat % 8 = 0)
    (hfits : lo.toNat + 8 ≤ hi.toNat) :
    zeroed (Function.update m lo 0) (lo + 8) hi = zeroed m lo hi := by
  have hhi := hi.isLt
  have hnext : (lo + 8).toNat = lo.toNat + 8 := by
    rw [BitVec.toNat_add]
    exact Nat.mod_eq_of_lt (by simp; omega)
  funext a
  unfold zeroed
  simp only [BitVec.le_def, BitVec.lt_def, hnext]
  by_cases ha : a = lo
  · subst ha
    simp [haligned]
    omega
  · have hne : a.toNat ≠ lo.toNat := fun heq => ha (BitVec.eq_of_toNat_eq heq)
    rw [Function.update_of_ne ha]
    congr 1
    apply propext
    omega

/-- What the loop leaves alone. -/
structure Looped (s s' : State ω) : Prop where
  atEl1 : AtEl1 s'.pstate
  sps : s'.sps = s.sps
  sys : s'.sys = s.sys
  world : s'.world = s.world

/-- The loop runs until it has zeroed the `n` doublewords between `x0` and `x1`. -/
theorem bss_loop (sym : BootSymbols) (call : BootCall → State ω → Option (State ω)) (n : ℕ)
    (haligned : (s.x 0).toNat % 8 = 0)
    (hlength : (s.x 0).toNat + 8 * n = (s.x 1).toNat) (hel : AtEl1 s.pstate) :
    ∃ s', Leads (start sym) call (.at (after (start sym) .zero) s)
      (.at (after (start sym) .one) s') ∧ s'.mem = zeroed s.mem (s.x 0) (s.x 1) ∧
      Looped s s' := by
  induction n generalizing s with
  | zero =>
    have hle : s.x 1 ≤ s.x 0 := by
      rw [BitVec.le_def]
      omega
    refine ⟨{ s with pstate := compare s.pstate (s.x 0) (s.x 1) }, ?_, (zeroed_empty hle).symm,
      hel.cmp _ _, rfl, rfl, rfl⟩
    refine (Leads.block (l := [.cmp 0 1]) rfl).trans (Leads.taken BootLabel.one ?_)
    show carry (compare _ _ _) = true
    rw [carry_compare, decide_eq_true hle]
  | succ n ih =>
    have hhi := (s.x 1).isLt
    have hnot : ¬ s.x 1 ≤ s.x 0 := by
      rw [BitVec.le_def]
      omega
    have hnext : (s.x 0 + 8).toNat = (s.x 0).toNat + 8 := by
      rw [BitVec.toNat_add]
      exact Nat.mod_eq_of_lt (by simp; omega)
    -- the turn stores one doubleword and goes back to the label
    obtain ⟨s₁, hs₁⟩ : ∃ s₁ : State ω, s₁ = { s with
      x := Function.update s.x 0 (s.x 0 + 8)
      pstate := compare s.pstate (s.x 0) (s.x 1)
      mem := Function.update s.mem (s.x 0) 0 } := ⟨_, rfl⟩
    have hstore : execAll [.strZeroPost 0 8]
        { s with pstate := compare s.pstate (s.x 0) (s.x 1) } = some s₁ := by
      have haddr : ({ s with pstate := compare s.pstate (s.x 0) (s.x 1) } : State ω).address
          (.x 0) 0 = some (s.x 0 + BitVec.ofNat 64 0) :=
        address_eq (fun h => nomatch h) haligned (by decide)
      have hzero : s.x 0 + BitVec.ofNat 64 0 = s.x 0 := BitVec.add_zero _
      rw [hzero] at haddr
      simp only [execAll, Instr.exec, haddr, Option.map_some, Option.bind_some, hs₁]
      rfl
    have hturn : Leads (start sym) call (.at (after (start sym) .zero) s)
        (.at (after (start sym) .zero) s₁) := by
      refine (Leads.block (l := [.cmp 0 1]) rfl).trans ((Leads.notTaken BootLabel.one ?_).trans
        ((Leads.block hstore).trans (Leads.b BootLabel.zero)))
      show carry (compare _ _ _) = false
      rw [carry_compare, decide_eq_false hnot]
    have hx0 : s₁.x 0 = s.x 0 + 8 := by
      rw [hs₁]
      simp
    have hx1 : s₁.x 1 = s.x 1 := by
      rw [hs₁]
      simp
    have hel₁ : AtEl1 s₁.pstate := by
      rw [hs₁]
      exact hel.cmp _ _
    obtain ⟨s', hreach, hmem, hrest⟩ := ih (s := s₁) (by rw [hx0, hnext]; omega)
      (by rw [hx0, hx1, hnext]; omega) hel₁
    refine ⟨s', hturn.trans hreach, ?_, hrest.atEl1, ?_, ?_, ?_⟩
    · rw [hmem, hx0, hx1, hs₁]
      exact zeroed_step haligned (by omega)
    · rw [hrest.sps, hs₁]
    · rw [hrest.sys, hs₁]
    · rw [hrest.world, hs₁]

/-- From reset at EL1 or EL2 the listing comes to the call of `kernel_entry`, at EL1 with
exceptions masked, on the boot stack, with zeroes in `.bss` and the rest of the memory as it
was. -/
theorem start_flows (call : BootCall → State ω → Option (State ω)) (hlinked : sym.Linked)
    (hel : el s.pstate = 1 ∧ spSel s.pstate = true ∨ el s.pstate = 2) :
    ∃ s', Flows (start sym) call (fun _ => sym.postEret) (.at (start sym) s)
      (.at (.bl .kernelEntry :: .label .two :: after (start sym) .two) s') ∧
      AtEl1 s'.pstate ∧ s'.sp = sym.stackTop ∧ s'.sys .cpacrEl1 = 0x300000 ∧
      s'.mem = zeroed s.mem sym.bssStart sym.bssEnd ∧ s'.world = s.world := by
  obtain ⟨s₁, hdrop, hel₁, hmem₁, hworld₁⟩ :=
    postEret_flows sym call hel
  obtain ⟨s₂, hblock, hx0, hx1, hpstate, hsps, hcpacr, hmem₂, hworld₂⟩ : ∃ s₂,
      execAll (setUp sym) s₁ = some s₂ ∧ s₂.x 0 = sym.bssStart ∧ s₂.x 1 = sym.bssEnd ∧
        s₂.pstate = s₁.pstate ∧ s₂.sps = Function.update s₁.sps s₁.spIndex sym.stackTop ∧
        s₂.sys .cpacrEl1 = 0x300000 ∧ s₂.mem = s₁.mem ∧ s₂.world = s₁.world :=
    ⟨_, rfl, rfl, rfl, rfl, rfl, rfl, rfl, rfl⟩
  obtain ⟨s', hloop, hmem, hrest⟩ := bss_loop sym call (s := s₂)
    ((sym.bssEnd.toNat - sym.bssStart.toNat) / 8) (by rw [hx0]; exact hlinked.bssStart_aligned)
    (by
      obtain ⟨hstart, hend, hle⟩ := hlinked
      rw [hx0, hx1]
      omega)
    (by rw [hpstate]; exact hel₁)
  refine ⟨s', hdrop.trans (Flows.of_leads ?_), hrest.atEl1, ?_, ?_, ?_, ?_⟩
  · exact (Leads.block hblock).trans ((Leads.label BootLabel.zero).trans
      (hloop.trans (Leads.refl _)))
  · rw [State.sp, hrest.atEl1.spIndex, hrest.sps, hsps, hel₁.spIndex, Function.update_self]
  · rw [hrest.sys, hcpacr]
  · rw [hmem, hx0, hx1, hmem₂, hmem₁]
  · rw [hrest.world, hworld₂, hworld₁]

/-- At EL0 or EL3 the listing halts: it waits in a loop, and control never leaves it. -/
theorem start_halts (h1 : el s.pstate ≠ 1) (h2 : el s.pstate ≠ 2) :
    (∃ s', Leads (start sym) call (.at (start sym) s)
        (.at (after (start sym) .haltUnsupportedEl) s') ∧
      Parks (start sym) call (.at (after (start sym) .haltUnsupportedEl) s') s' ∧
      s'.mem = s.mem ∧ s'.world = s.world) ∧
    ∀ e, ¬ Leads (start sym) call (.at (start sym) s) (.exit e) := by
  obtain ⟨s', hdispatched, hreach⟩ := dispatch_leads sym call s
  have hlabel : bootLabelOf (el s.pstate) = .haltUnsupportedEl :=
    (if_neg h2).trans (if_neg h1)
  rw [hlabel] at hreach
  have hparks : Parks (start sym) call (.at (after (start sym) .haltUnsupportedEl) s') s' :=
    parks_wfe s' rfl
  exact ⟨⟨s', hreach, hparks, hdispatched.mem, hdispatched.world⟩,
    fun e => hparks.never_exits hreach e⟩

/-- Symbols of an image at `0x4008_0000`, and a reset with status `p`. -/
def imageSymbols : BootSymbols := ⟨0x4008_0044, 0x4011_6000, 0x4010_0000, 0x4010_6000⟩

def resetAt (p : Word) : State Unit :=
  ⟨fun _ => 7, fun _ => 7, fun _ => 7, p, fun _ => 7, fun _ => 7, ()⟩

theorem start_halts_el3 :
    ¬ ∃ e, Leads (start imageSymbols) (fun _ _ => none) (.at (start imageSymbols)
      (resetAt 0x3cd)) (.exit e) := by
  rintro ⟨e, hexit⟩
  exact (start_halts (by decide) (by decide)).2 e hexit

end Start

/-! ## From reset to the high half -/

/-- The bytes of a memory of doublewords. -/
def bytes (m : Word → Word) : Memory :=
  fun a => (m (BitVec.ofNat 64 (a / 8 * 8))).extractLsb' (8 * (a % 8)) 8

/-- The frames of the boot tables are in `.bss`, and below the physical address size. -/
structure BootTables.InBss (t : BootTables) (sym : BootSymbols) (limit : ℕ) : Prop where
  nodup : t.frames.Nodup
  aligned : ∀ a ∈ t.frames, a % pageSize = 0
  below : ∀ a ∈ t.frames, a < limit
  inside : ∀ a ∈ t.frames, sym.bssStart.toNat ≤ a ∧ a + pageSize ≤ sym.bssEnd.toNat

/-- The low 4 GiB of physical addresses. -/
def kernelImagePaMask : ℕ := 0xFFFF_FFFF

def highHalfAlias [Build] {σ ε : Type} (addr : ℕ) : Prog σ ε ℕ := do
  let pa := addr &&& kernelImagePaMask
  debugAssert (addr = pa ∨ addr = kernelHighHalfOffset ||| pa)
    ("migration: symbol address is neither a low PA nor its high-half alias " ++
      "— the kernel image PA must be < 4 GiB (KERNEL_IMAGE_PA_MASK)")
  return kernelHighHalfOffset ||| pa

/-- The first step of `kernel_main_high`: null `TTBR0_EL1`, and disable walks through it. -/
def freeTtbr0 {ε : Type} : Prog Regime ε Unit :=
  Prog.modify fun s => { s with ttbr0El1 := 0, tcrEl1 := s.tcrEl1 ||| tcrEl1Epd0Bit }

section HighHalf

variable {ω ε : Type} {sym : BootSymbols} {call : BootCall → State ω → Option (State ω)}
  {s : State ω} {t : BootTables} {limit : ℕ}

/-- The bytes of `.bss` are zero. -/
theorem bytes_zeroed (hlinked : sym.Linked) {m : Word → Word} {a : ℕ}
    (hstart : sym.bssStart.toNat ≤ a) (hend : a < sym.bssEnd.toNat) :
    bytes (zeroed m sym.bssStart sym.bssEnd) a = 0 := by
  obtain ⟨haligned, -, -⟩ := hlinked
  have hlt := sym.bssEnd.isLt
  have hword : (BitVec.ofNat 64 (a / 8 * 8)).toNat = a / 8 * 8 := by
    rw [BitVec.toNat_ofNat]
    exact Nat.mod_eq_of_lt (by omega)
  have hzero : zeroed m sym.bssStart sym.bssEnd (BitVec.ofNat 64 (a / 8 * 8)) = 0 := by
    unfold zeroed
    simp only [BitVec.le_def, BitVec.lt_def, hword]
    exact if_pos (by omega)
  unfold bytes
  rw [hzero]
  exact BitVec.extractLsb'_zero

/-- The loop over `.bss` has zeroed the tables. -/
theorem BootTables.InBss.wellPlaced (h : t.InBss sym limit) (hlinked : sym.Linked)
    {m : Word → Word} {memory : Memory} (hmemory : ∀ a, sym.bssStart.toNat ≤ a →
      a < sym.bssEnd.toNat → memory a = bytes (zeroed m sym.bssStart sym.bssEnd) a) :
    t.WellPlaced limit memory where
  nodup := h.nodup
  aligned := h.aligned
  below := h.below
  zeroed a ha x hx := by
    obtain ⟨hstart, hend⟩ := h.inside a ha
    unfold InFrame at hx
    rw [hmemory x (by omega) (by omega)]
    exact bytes_zeroed hlinked (by omega) (by omega)

/-- With `.bss` in RAM, the tables are written at the addresses that the routines name. -/
theorem BootTables.InBss.identity {ε : Type} (h : t.InBss sym limit) (hlinked : sym.Linked)
    (hlimit : 0x4800_0000 ≤ limit) (hwindow : limit ≤ 2 ^ 48)
    (hram : 0x4000_0000 ≤ sym.bssStart.toNat ∧ sym.bssEnd.toNat ≤ 0x4800_0000)
    {m : Word → Word} {r : Regime} (hmemory : ∀ a, sym.bssStart.toNat ≤ a →
      a < sym.bssEnd.toNat → r.memory a = bytes (zeroed m sym.bssStart sym.bssEnd) a) :
    ∃ r', (mmuBootstrap t : Prog Regime ε Unit).run r = .ok () r' ∧
      ∀ a ∈ t.frames, ∀ b, InFrame a b → r'.ttbr0Walk limit b = some ⟨b, ramAttributes⟩ := by
  apply mmuBootstrap_identity hlimit hwindow (h.wellPlaced hlinked hmemory)
  intro a ha
  obtain ⟨hstart, hend⟩ := h.inside a ha
  unfold InRam
  unfold pageSize at hend
  omega

/-- The alias of a physical address below 4 GiB is in the direct map. -/
theorem highHalfAlias_low [Build] {σ : Type} {pa : ℕ} (hpa : pa < 2 ^ 32) :
    (highHalfAlias pa : Prog σ ε ℕ) = pure (kernelHighHalfOffset + pa) := by
  have hmask : pa &&& kernelImagePaMask = pa := by
    rw [show kernelImagePaMask = 2 ^ 32 - 1 from rfl, Nat.and_two_pow_sub_one_eq_mod]
    exact Nat.mod_eq_of_lt hpa
  have hor : kernelHighHalfOffset ||| pa = kernelHighHalfOffset + pa := by
    rw [show kernelHighHalfOffset = 2 ^ 32 * 0xFFFF_FFFF from rfl]
    exact (Nat.two_pow_add_eq_or_of_lt hpa _).symm
  unfold highHalfAlias
  dsimp only
  rw [hmask, debugAssert_pos (Or.inl rfl), hor]
  rfl

/-- The boot from reset. At EL1 or EL2 the listing comes to `kernel_entry`, at EL1 with all
exceptions masked, on the boot stack, with zeroes in `.bss` and the rest of the memory as it
was. Whatever the kernel then does outside of `.bss`, the routines for the boot tables return;
after them every address below 4 GiB and its alias in the high half show the same byte with
the same attributes, so that code, stack and vectors stay where they are when the kernel
branches to the high half; and once it has freed `TTBR0_EL1`, the high half is as before and
the low half shows nothing. -/
theorem reset_to_high_half [Build] (hlinked : sym.Linked) (htables : t.InBss sym limit)
    (hlimit : 0x4800_0000 ≤ limit) (hwindow : limit ≤ 2 ^ 48)
    (hnoReturn : ∀ s, call .kernelEntry s = none)
    (hel : el s.pstate = 1 ∧ spSel s.pstate = true ∨ el s.pstate = 2) :
    ∃ s', Flows (start sym) call (fun _ => sym.postEret) (.at (start sym) s)
        (.exit (.noReturn .kernelEntry s')) ∧
      AtEl1 s'.pstate ∧ s'.sp = sym.stackTop ∧ s'.sys .cpacrEl1 = 0x300000 ∧
      s'.mem = zeroed s.mem sym.bssStart sym.bssEnd ∧ s'.world = s.world ∧
      ∀ r : Regime, (∀ a, sym.bssStart.toNat ≤ a → a < sym.bssEnd.toNat →
          r.memory a = bytes s'.mem a) →
        ∃ r₁ r₂, (mmuBootstrap t >>= fun _ => highHalfActivate t : Prog Regime ε Unit).run r =
            .ok () r₁ ∧ (freeTtbr0 : Prog Regime ε Unit).run r₁ = .ok () r₂ ∧
          (∀ pa < 2 ^ 32, ∃ va, (highHalfAlias pa : Prog Regime ε ℕ) = pure va ∧
            r₁.ttbr0Walk limit pa = bootMap pa ∧ r₁.ttbr1Walk limit va = bootMap pa ∧
            r₂.ttbr1Walk limit va = bootMap pa) ∧
          (∀ va, r₂.ttbr1Walk limit va = r₁.ttbr1Walk limit va) ∧
          ∀ va, r₂.ttbr0Walk limit va = none := by
  obtain ⟨s', hflows, hel', hsp, hcpacr, hmem, hworld⟩ :=
    start_flows call hlinked hel
  refine ⟨s', hflows.trans (Flows.of_leads (Leads.bl_noReturn (hnoReturn s'))), hel', hsp,
    hcpacr, hmem, hworld, fun r hmemory => ?_⟩
  rw [hmem] at hmemory
  obtain ⟨r₁, hrun, hpopulated, hmair, htcr, hlow, hhigh⟩ :=
    boot_run (ε := ε) (htables.wellPlaced hlinked hmemory)
  have hroot : ∀ a ∈ t.frames, (BitVec.ofNat 64 a &&& tableNlaMask).toNat = a := fun a ha =>
    and_pageOaMaskL3_of_aligned (htables.aligned a ha) ((htables.below a ha).trans_le hwindow)
  have hl0 : t.l0 ∈ t.frames := by simp [BootTables.frames]
  have hl0Hh : t.l0Hh ∈ t.frames := by simp [BootTables.frames]
  have hhighHalf : ∀ {pa : ℕ}, pa < 2 ^ 32 →
      walkTable limit mairEl1Value r₁.memory (kernelHighHalfOffset + pa) 3 0 t.l0Hh =
        bootMap pa := by
    intro pa hpa
    rw [hpopulated.walk_high hlimit hwindow htables.aligned htables.below
      (by unfold kernelHighHalfOffset; omega) (by unfold kernelHighHalfOffset; omega),
      if_pos (Nat.le_add_right _ _), Nat.add_sub_cancel_left]
  refine ⟨r₁, { r₁ with ttbr0El1 := 0, tcrEl1 := r₁.tcrEl1 ||| tcrEl1Epd0Bit }, hrun, rfl,
    fun pa hpa => ⟨_, highHalfAlias_low hpa, ?_, ?_, ?_⟩, fun va => ?_, fun va => ?_⟩
  · have hon : Ttbr0On r₁.tcrEl1 := by rw [htcr]; decide
    unfold Regime.ttbr0Walk
    rw [if_pos hon, hmair, hlow, hroot _ hl0]
    exact hpopulated.walk_low hlimit hwindow htables.aligned htables.below (by omega)
  · have hon : Ttbr1On r₁.tcrEl1 := by rw [htcr]; decide
    unfold Regime.ttbr1Walk
    rw [if_pos hon, hmair, hhigh, hroot _ hl0Hh]
    exact hhighHalf hpa
  · have hon : Ttbr1On (r₁.tcrEl1 ||| tcrEl1Epd0Bit) := by rw [htcr]; decide
    unfold Regime.ttbr1Walk
    dsimp only
    rw [if_pos hon, hmair, hhigh, hroot _ hl0Hh]
    exact hhighHalf hpa
  · have hon : Ttbr1On r₁.tcrEl1 := by rw [htcr]; decide
    have hon' : Ttbr1On (r₁.tcrEl1 ||| tcrEl1Epd0Bit) := by rw [htcr]; decide
    unfold Regime.ttbr1Walk
    dsimp only
    rw [if_pos hon, if_pos hon']
  · have hoff : ¬ Ttbr0On (r₁.tcrEl1 ||| tcrEl1Epd0Bit) := by rw [htcr]; decide
    exact if_neg hoff

theorem reset_to_high_half_el2 : let _ : Build := debugBuild
    ∃ s' : State Unit, Flows (start imageSymbols) (fun _ _ => none) (fun _ => 0x4008_0044)
        (.at (start imageSymbols) (resetAt 0x3c9)) (.exit (.noReturn .kernelEntry s')) ∧
      s'.sp = 0x4011_6000 ∧ s'.mem 0x4010_5ff8 = 0 ∧ s'.mem 0x4010_6000 = 7 ∧
      ∃ r₁ : Regime, (mmuBootstrap sixTables >>= fun _ => highHalfActivate sixTables :
          Prog Regime Empty Unit).run ⟨bytes s'.mem, 0, 0, 0, 0, 0⟩ = .ok () r₁ ∧
        r₁.ttbr0Walk (2 ^ 48) 0x4008_0000 = some ⟨0x4008_0000, ramAttributes⟩ := by
  intro _
  have htables : sixTables.InBss imageSymbols (2 ^ 48) :=
    ⟨by decide, by decide, by decide, by decide⟩
  let call : BootCall → State Unit → Option (State Unit) := fun _ _ => none
  have hnoReturn : ∀ s, call .kernelEntry s = none := fun _ => rfl
  obtain ⟨s', hflows, -, hsp, -, hmem, -, hboot⟩ := reset_to_high_half (ε := Empty)
    (s := resetAt 0x3c9) ⟨by decide, by decide, by decide⟩ htables (by omega) le_rfl
    hnoReturn (Or.inr (by decide))
  obtain ⟨r₁, r₂, hrun, -, hwalks, -⟩ := hboot ⟨bytes s'.mem, 0, 0, 0, 0, 0⟩ fun _ _ _ => rfl
  obtain ⟨-, -, hlow, -⟩ := hwalks 0x4008_0000 (by omega)
  refine ⟨s', hflows, hsp, ?_, ?_, r₁, hrun, hlow⟩
  · rw [hmem]
    rfl
  · rw [hmem]
    rfl

end HighHalf

end Tyrne
