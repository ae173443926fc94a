import Mathlib.Tactic.FinCases
import Tyrne.Library.A64
import Tyrne.Library.Run

/-!
# Context switches and the first entry to EL0

The two naked functions of the board's processor. `context_switch_asm` saves the callee-saved
registers of the running task in its context, loads those of the next one, and returns to
where that one left off; `enter_el0` is where a new user task is made to return to: it clears
the register file and drops to EL0.
-/

namespace Tyrne

open A64

/-! ## Contexts -/

structure Aarch64TaskContext where
  x19_x28 : Fin 10 → Word
  fp : Word
  lr : Word
  sp : Word
  d8_d15 : Fin 8 → Word

namespace Aarch64TaskContext

instance : Inhabited Aarch64TaskContext := ⟨⟨fun _ => 0, 0, 0, 0, fun _ => 0⟩⟩

/-- The words of a context with their offsets; the structure takes 168 bytes. -/
def words (c : Aarch64TaskContext) : List (ℕ × Word) := [
  (0, c.x19_x28 0), (8, c.x19_x28 1), (16, c.x19_x28 2), (24, c.x19_x28 3), (32, c.x19_x28 4),
  (40, c.x19_x28 5), (48, c.x19_x28 6), (56, c.x19_x28 7), (64, c.x19_x28 8), (72, c.x19_x28 9),
  (80, c.fp), (88, c.lr), (96, c.sp),
  (104, c.d8_d15 0), (112, c.d8_d15 1), (120, c.d8_d15 2), (128, c.d8_d15 3),
  (136, c.d8_d15 4), (144, c.d8_d15 5), (152, c.d8_d15 6), (160, c.d8_d15 7)]

def size : ℕ := 168

/-- The context in memory at `p`. -/
def load (m : Word → Word) (p : Word) : Aarch64TaskContext where
  x19_x28 i := m (p + BitVec.ofNat 64 (8 * i.val))
  fp := m (p + 80)
  lr := m (p + 88)
  sp := m (p + 96)
  d8_d15 i := m (p + BitVec.ofNat 64 (104 + 8 * i.val))

/-- The context that the processor is in. -/
def current {ω : Type} (s : State ω) : Aarch64TaskContext where
  x19_x28 i := s.x ⟨19 + i.val, by omega⟩
  fp := s.x 29
  lr := s.x 30
  sp := s.sp
  d8_d15 i := s.read (.d ⟨8 + i.val, by omega⟩)

/-- `init_context`. -/
def initContext (ctx : Aarch64TaskContext) (entry stackTop : Word) : Aarch64TaskContext :=
  { ctx with lr := entry, sp := stackTop }

/-- `init_user_context`; `enterEl0` is the address of the function of that name. -/
def initUserContext (ctx : Aarch64TaskContext) (enterEl0 userEntry userSp kernelStackTop : Word) :
    Aarch64TaskContext :=
  { ctx with
    x19_x28 := Function.update (Function.update ctx.x19_x28 0 userEntry) 1 userSp
    lr := enterEl0
    sp := kernelStackTop }

variable {m : Word → Word} {p : Word}

theorem words_offsets (c : Aarch64TaskContext) :
    (c.words.map Prod.fst).Nodup ∧ ∀ k ∈ c.words.map Prod.fst, k < size := by
  have hfst : c.words.map Prod.fst = [0, 8, 16, 24, 32, 40, 48, 56, 64, 72, 80, 88, 96, 104, 112,
    120, 128, 136, 144, 152, 160] := rfl
  rw [hfst]
  decide

theorem stored_word {c : Aarch64TaskContext} (off : ℕ) {w : Word} (h : (off, w) ∈ c.words) :
    storeAll m p c.words (p + BitVec.ofNat 64 off) = w := by
  obtain ⟨hnodup, hbound⟩ := words_offsets c
  exact storeAll_slot hnodup
    (fun q hq => (hbound _ (List.mem_map_of_mem hq)).trans (by decide)) h

/-- A stored context is there. -/
theorem load_stored (c : Aarch64TaskContext) : load (storeAll m p c.words) p = c := by
  obtain ⟨x19_x28, fp, lr, sp, d8_d15⟩ := c
  unfold load
  congr 1
  · funext i
    apply stored_word
    fin_cases i <;> simp [words]
  · exact stored_word 80 (by simp [words])
  · exact stored_word 88 (by simp [words])
  · exact stored_word 96 (by simp [words])
  · funext i
    apply stored_word
    fin_cases i <;> simp [words]

/-- What is not in the block at `p` does not see the store. -/
theorem stored_other {c : Aarch64TaskContext} {a : Word}
    (ha : ∀ off < size, a ≠ p + BitVec.ofNat 64 off) : storeAll m p c.words a = m a := by
  refine storeAll_other fun q hq => ?_
  exact ha q.1 ((words_offsets c).2 _ (List.mem_map_of_mem hq))

/-- A context depends on the words of its block only. -/
theorem load_congr {m' : Word → Word}
    (h : ∀ off < size, m' (p + BitVec.ofNat 64 off) = m (p + BitVec.ofNat 64 off)) :
    load m' p = load m p := by
  unfold load
  congr 1
  · funext i
    exact h _ (by unfold size; omega)
  · exact h 80 (by decide)
  · exact h 88 (by decide)
  · exact h 96 (by decide)
  · funext i
    exact h _ (by unfold size; omega)

end Aarch64TaskContext

/-! ## The switch -/

def gpPairs : Pairs := [
  (.x 19, .x 20, 0), (.x 21, .x 22, 16), (.x 23, .x 24, 32), (.x 25, .x 26, 48),
  (.x 27, .x 28, 64), (.x 29, .x 30, 80)]

def simdPairs : Pairs := [
  (.d 8, .d 9, 104), (.d 10, .d 11, 120), (.d 12, .d 13, 136), (.d 14, .d 15, 152)]

/-- Save current (`x0`). -/
def contextSave : List Instr := [
  .stp (.x 19) (.x 20) (.x 0) 0,
  .stp (.x 21) (.x 22) (.x 0) 16,
  .stp (.x 23) (.x 24) (.x 0) 32,
  .stp (.x 25) (.x 26) (.x 0) 48,
  .stp (.x 27) (.x 28) (.x 0) 64,
  .stp (.x 29) (.x 30) (.x 0) 80,
  .mov (.x 8) .sp,
  .str (.x 8) (.x 0) 96,
  .stp (.d 8) (.d 9) (.x 0) 104,
  .stp (.d 10) (.d 11) (.x 0) 120,
  .stp (.d 12) (.d 13) (.x 0) 136,
  .stp (.d 14) (.d 15) (.x 0) 152]

/-- Restore next (`x1`). -/
def contextRestore : List Instr := [
  .ldp (.d 14) (.d 15) (.x 1) 152,
  .ldp (.d 12) (.d 13) (.x 1) 136,
  .ldp (.d 10) (.d 11) (.x 1) 120,
  .ldp (.d 8) (.d 9) (.x 1) 104,
  .ldr (.x 8) (.x 1) 96,
  .mov .sp (.x 8),
  .ldp (.x 29) (.x 30) (.x 1) 80,
  .ldp (.x 27) (.x 28) (.x 1) 64,
  .ldp (.x 25) (.x 26) (.x 1) 48,
  .ldp (.x 23) (.x 24) (.x 1) 32,
  .ldp (.x 21) (.x 22) (.x 1) 16,
  .ldp (.x 19) (.x 20) (.x 1) 0]

def contextSwitchAsm : List (Line Empty Empty) :=
  contextSave.map .op ++ (contextRestore.map .op ++ [.ret])

section Switch

variable {ω : Type} {s s' : State ω} {p q : Word} {call : Empty → State ω → Option (State ω)}

/-- The offset of a general register in a context. -/
def gpSlot (r : Reg) : Option ℕ :=
  if 19 ≤ r.val ∧ r.val ≤ 28 then some (8 * (r.val - 19))
  else if r.val = 29 then some 80
  else if r.val = 30 then some 88
  else none

theorem gpPairs_slots : HasSlots (slots gpPairs.reverse) gpSlot := ⟨by decide, by decide⟩

/-- The first half: the registers of the running task are in its context. -/
theorem save_exec (haligned : (s.x 0).toNat % 8 = 0) :
    execAll contextSave s = some ((s.setX 8 s.sp).setMem
      (storeAll s.mem (s.x 0) (Aarch64TaskContext.current s).words)) := by
  have hgp : execAll (stps (.x 0) gpPairs) s =
      some (s.setMem (storeAll s.mem (s.x 0) (saved s (slots gpPairs)))) :=
    exec_stps (fun h => nomatch h) haligned (by decide)
  generalize hm₁ : storeAll s.mem (s.x 0) (saved s (slots gpPairs)) = m₁ at hgp
  have hsp : execAll [.mov (.x 8) .sp, .str (.x 8) (.x 0) 96] (s.setMem m₁) =
      some ((s.setX 8 s.sp).setMem (Function.update m₁ (s.x 0 + 96) s.sp)) := by
    have haddr : ((s.setMem m₁).setX 8 s.sp).address (.x 0) 96 = some (s.x 0 + 96) :=
      address_eq (fun h => nomatch h) haligned (by decide)
    refine (execAll_cons (t := (s.setMem m₁).setX 8 s.sp) rfl).trans ?_
    show ((((s.setMem m₁).setX 8 s.sp).address (.x 0) 96).map _).bind (execAll []) = _
    rw [haddr]
    rfl
  generalize hm₂ : Function.update m₁ (s.x 0 + 96) s.sp = m₂ at hsp
  have hsimd : execAll (stps (.x 0) simdPairs) ((s.setX 8 s.sp).setMem m₂) =
      some (((s.setX 8 s.sp).setMem m₂).setMem (storeAll m₂ (s.x 0)
        (saved s (slots simdPairs)))) :=
    exec_stps (fun h => nomatch h) haligned (by decide)
  have hsplit : contextSave = stps (.x 0) gpPairs ++
      ([.mov (.x 8) .sp, .str (.x 8) (.x 0) 96] ++ stps (.x 0) simdPairs) := rfl
  rw [hsplit, execAll_append hgp, execAll_append hsp, hsimd]
  have hwords : (Aarch64TaskContext.current s).words =
      saved s (slots gpPairs) ++ ([(96, s.sp)] ++ saved s (slots simdPairs)) := rfl
  rw [hwords, storeAll_append, storeAll_append, hm₁]
  show some _ = some ((s.setX 8 s.sp).setMem (storeAll (Function.update m₁ (s.x 0 + 96) s.sp) _ _))
  rw [hm₂]
  rfl

theorem simdPairs_slots : ((slots simdPairs.reverse).map Prod.fst).Nodup := by decide

/-- The offset of a vector register in a context. -/
theorem mem_simdPairs (i : Fin 8) :
    (Operand.d ⟨8 + i.val, by omega⟩, 104 + 8 * i.val) ∈ slots simdPairs.reverse := by
  fin_cases i <;> decide

/-- The second half: the registers of the next task are loaded. -/
theorem load_exec (haligned : (s.x 1).toNat % 8 = 0) :
    ∃ s', execAll contextRestore s = some s' ∧
      Aarch64TaskContext.current s' = .load s.mem (s.x 1) ∧ s'.mem = s.mem ∧
      s'.pstate = s.pstate ∧ s'.sys = s.sys ∧ s'.world = s.world ∧
      ∀ i, i ≠ s.spIndex → s'.sps i = s.sps i := by
  have hsimd : execAll (ldps (.x 1) simdPairs.reverse) s =
      some (loadAll (s.x 1) (slots simdPairs.reverse) s) :=
    exec_ldps (fun h => nomatch h) haligned (by decide) (by
      intro r hr
      cases hr
      decide)
  have hrest := loadAll_rest (b := s.x 1) (l := slots simdPairs.reverse) (s := s)
  have hx1 : (loadAll (s.x 1) (slots simdPairs.reverse) s).x 1 = s.x 1 :=
    loadAll_other (o := .x 1) (by decide)
  have hd : ∀ i : Fin 8, (loadAll (s.x 1) (slots simdPairs.reverse) s).read
      (.d ⟨8 + i.val, by omega⟩) = s.mem (s.x 1 + BitVec.ofNat 64 (104 + 8 * i.val)) :=
    fun i => loadAll_slot simdPairs_slots (mem_simdPairs i)
  generalize loadAll (s.x 1) (slots simdPairs.reverse) s = s₁ at hsimd hrest hx1 hd
  -- the stack pointer, by way of `x8`
  have hsp : execAll [.ldr (.x 8) (.x 1) 96, .mov .sp (.x 8)] s₁ =
      some ((s₁.setX 8 (s.mem (s.x 1 + 96))).setSp (s.mem (s.x 1 + 96))) := by
    have haddr : s₁.address (.x 1) 96 = some (s.x 1 + 96) := by
      rw [← hx1] at haligned ⊢
      exact address_eq (fun h => nomatch h) haligned (by decide)
    have hload : (Instr.ldr (.x 8) (.x 1) 96).exec s₁ =
        some (s₁.setX 8 (s.mem (s.x 1 + 96))) := by
      show (s₁.address (.x 1) 96).map _ = _
      rw [haddr, Option.map_some, hrest.mem]
      rfl
    refine (execAll_cons hload).trans ?_
    simp [execAll, Instr.exec, State.setBase, State.base, State.setX]
  obtain ⟨s₂, hs₂⟩ : ∃ s₂, s₂ =
      (s₁.setX 8 (s.mem (s.x 1 + 96))).setSp (s.mem (s.x 1 + 96)) := ⟨_, rfl⟩
  have hx1₂ : s₂.x 1 = s.x 1 := by
    rw [hs₂]
    exact hx1
  have hgp : execAll (ldps (.x 1) gpPairs.reverse) s₂ =
      some (loadAll (s₂.x 1) (slots gpPairs.reverse) s₂) :=
    exec_ldps (fun h => nomatch h) (by rw [← hx1₂] at haligned; exact haligned) (by decide) (by
      intro r hr
      cases hr
      decide)
  have hrest₂ := loadAll_rest (b := s₂.x 1) (l := slots gpPairs.reverse) (s := s₂)
  have hx := loadAll_x (b := s₂.x 1) (s := s₂) gpPairs_slots
  have hv := loadAll_v (b := s₂.x 1) (s := s₂) (l := slots gpPairs.reverse) (by decide)
  have hmem₂ : s₂.mem = s.mem := by
    rw [hs₂]
    exact hrest.mem
  generalize loadAll (s₂.x 1) (slots gpPairs.reverse) s₂ = s' at hgp hrest₂ hx hv
  refine ⟨s', ?_, ?_, hrest₂.mem.trans hmem₂, ?_, ?_, ?_, fun i hi => ?_⟩
  · have hsplit : contextRestore = ldps (.x 1) simdPairs.reverse ++
        ([.ldr (.x 8) (.x 1) 96, .mov .sp (.x 8)] ++ ldps (.x 1) gpPairs.reverse) := rfl
    rw [hsplit, execAll_append hsimd, execAll_append (hsp.trans (congrArg some hs₂.symm)), hgp]
  · have hslot : ∀ (r : Reg) (off : ℕ), gpSlot r = some off →
        s'.x r = s.mem (s.x 1 + BitVec.ofNat 64 off) := by
      intro r off hr
      rw [hx r, hr, hmem₂, hx1₂]
    unfold Aarch64TaskContext.current Aarch64TaskContext.load
    congr 1
    · funext i
      refine hslot _ _ ?_
      unfold gpSlot
      rw [if_pos ⟨by dsimp only; omega, by dsimp only; omega⟩]
      congr 2
      dsimp only
      omega
    · exact hslot 29 80 rfl
    · exact hslot 30 88 rfl
    · rw [hrest₂.sp, hs₂, setSp_sp]
    · funext i
      rw [← hd i]
      unfold State.read
      dsimp only
      rw [hv, hs₂]
      rfl
  · exact hrest₂.pstate.trans (by rw [hs₂]; exact hrest.pstate)
  · exact hrest₂.sys.trans (by rw [hs₂]; exact hrest.sys)
  · exact hrest₂.world.trans (by rw [hs₂]; exact hrest.world)
  · have hindex : (s₁.setX 8 (s.mem (s.x 1 + 96))).spIndex = s.spIndex := by
      show s₁.spIndex = _
      unfold State.spIndex
      rw [hrest.pstate]
    rw [hrest₂.sps, hs₂]
    unfold State.setSp
    dsimp only
    rw [hindex, Function.update_of_ne hi]
    exact congrFun hrest.sps i

/-- A switch runs through: the running task's registers are in its context, and the processor
is in the next one, at the address where that left off. -/
theorem contextSwitch_leads (call : Empty → State ω → Option (State ω))
    (hcurrent : (s.x 0).toNat % 8 = 0) (hnext : (s.x 1).toNat % 8 = 0) :
    ∃ s', Leads contextSwitchAsm call (.at contextSwitchAsm s)
        (.exit (.goto (Aarch64TaskContext.current s').lr s')) ∧
      Aarch64TaskContext.current s' = .load s'.mem (s.x 1) ∧
      s'.mem = storeAll s.mem (s.x 0) (Aarch64TaskContext.current s).words ∧
      s'.pstate = s.pstate ∧ s'.sys = s.sys ∧ s'.world = s.world ∧
      ∀ i, i ≠ s.spIndex → s'.sps i = s.sps i := by
  obtain ⟨s', hload, hregs, hmem, hpstate, hsys, hworld, hsps⟩ :=
    load_exec (s := (s.setX 8 s.sp).setMem
      (storeAll s.mem (s.x 0) (Aarch64TaskContext.current s).words)) hnext
  refine ⟨s', ?_, ?_, hmem, hpstate, hsys, hworld, hsps⟩
  · exact (Leads.block (save_exec hcurrent)).trans ((Leads.block hload).trans Leads.ret)
  · rw [hregs, hmem]
    rfl

end Switch

/-! ## Runs of switching tasks -/

section Runs

variable {τ ω : Type} {place : τ → Word} {call : Empty → State ω → Option (State ω)}

/-- Where the contexts of the tasks are: aligned, and apart from each other. -/
structure Placed (place : τ → Word) : Prop where
  aligned : ∀ i, (place i).toNat % 8 = 0
  apart : ∀ i j, i ≠ j → ∀ off < Aarch64TaskContext.size, ∀ off' < Aarch64TaskContext.size,
    place i + BitVec.ofNat 64 off ≠ place j + BitVec.ofNat 64 off'

/-- The task that runs, and the processor. -/
structure OnCpu (τ ω : Type) where
  task : τ
  state : State ω

inductive TaskAct (τ ω : Type)
  /-- The running task computes. -/
  | compute
  /-- `task` switches to `next`, which goes on at `pc`. -/
  | switch (task : τ) (before : State ω) (next : τ) (pc : Word) (after : State ω)

/-- A running task may do anything but touch the contexts; it switches by a call of
`context_switch_asm` with its own context and that of another task. -/
inductive TaskStep (place : τ → Word) (call : Empty → State ω → Option (State ω)) :
    OnCpu τ ω → TaskAct τ ω → OnCpu τ ω → Prop
  | compute {task : τ} {s s' : State ω}
      (hkeep : ∀ i, ∀ off < Aarch64TaskContext.size,
        s'.mem (place i + BitVec.ofNat 64 off) = s.mem (place i + BitVec.ofNat 64 off)) :
      TaskStep place call ⟨task, s⟩ .compute ⟨task, s'⟩
  | switch {task next : τ} {s s' : State ω} {pc : Word} (hne : next ≠ task)
      (hcurrent : s.x 0 = place task) (hnext : s.x 1 = place next)
      (hrun : Leads contextSwitchAsm call (.at contextSwitchAsm s) (.exit (.goto pc s'))) :
      TaskStep place call ⟨task, s⟩ (.switch task s next pc s') ⟨next, s'⟩

/-- The context in which each task switched away last, or the one it was given. -/
def leftOff [DecidableEq τ] (initial : τ → Aarch64TaskContext) (acts : List (TaskAct τ ω)) :
    τ → Aarch64TaskContext :=
  acts.foldl (fun saved act =>
    match act with
    | .switch task before _ _ _ => Function.update saved task (.current before)
    | .compute => saved) initial

variable {r r' : OnCpu τ ω} {acts : List (TaskAct τ ω)}

/-- What a switch does. -/
theorem TaskStep.switched (hplaced : Placed place) {task next : τ} {s s' : State ω} {pc : Word}
    (hcurrent : s.x 0 = place task) (hnext : s.x 1 = place next)
    (hrun : Leads contextSwitchAsm call (.at contextSwitchAsm s) (.exit (.goto pc s'))) :
    pc = (Aarch64TaskContext.current s').lr ∧
      Aarch64TaskContext.current s' = .load s'.mem (place next) ∧
      s'.mem = storeAll s.mem (place task) (Aarch64TaskContext.current s).words ∧
      s'.pstate = s.pstate ∧ s'.sys = s.sys ∧ s'.world = s.world := by
  obtain ⟨s₁, hreach, hregs, hmem, hpstate, hsys, hworld, -⟩ := contextSwitch_leads call
    (by rw [hcurrent]; exact hplaced.aligned task) (by rw [hnext]; exact hplaced.aligned next)
  have hsame := hreach.exit_unique hrun
  cases hsame
  rw [hnext] at hregs
  rw [hcurrent] at hmem
  exact ⟨rfl, hregs, hmem, hpstate, hsys, hworld⟩

/-- A switch to any other task runs through. -/
theorem TaskStep.exists_switch (hplaced : Placed place) {next : τ} (hne : next ≠ r.task)
    (hcurrent : r.state.x 0 = place r.task) (hnext : r.state.x 1 = place next) :
    ∃ pc after, TaskStep place call r (.switch r.task r.state next pc after) ⟨next, after⟩ := by
  obtain ⟨after, hreach, -⟩ := contextSwitch_leads call
    (by rw [hcurrent]; exact hplaced.aligned _) (by rw [hnext]; exact hplaced.aligned _)
  exact ⟨_, after, .switch hne hcurrent hnext hreach⟩

theorem Placed.load_other (hplaced : Placed place) {i task : τ} (hne : i ≠ task)
    {m : Word → Word} {c : Aarch64TaskContext} :
    Aarch64TaskContext.load (storeAll m (place task) c.words) (place i) =
      .load m (place i) := by
  apply Aarch64TaskContext.load_congr
  intro off hoff
  exact Aarch64TaskContext.stored_other
    fun off' hoff' => hplaced.apart i task hne off hoff off' hoff'

variable [DecidableEq τ] {initial : τ → Aarch64TaskContext}

theorem leftOff_compute (initial : τ → Aarch64TaskContext) (past : List (TaskAct τ ω)) :
    leftOff initial (past ++ [.compute]) = leftOff initial past := by
  unfold leftOff
  rw [List.foldl_append]
  rfl

theorem leftOff_switch (initial : τ → Aarch64TaskContext) (past : List (TaskAct τ ω))
    (task next : τ) (s s' : State ω) (pc : Word) :
    leftOff initial (past ++ [.switch task s next pc s']) =
      Function.update (leftOff initial past) task (.current s) := by
  unfold leftOff
  rw [List.foldl_append]
  rfl

/-- The contexts in memory are those in which the tasks left off. -/
theorem leftOff_of_run (hplaced : Placed place)
    (hstart : ∀ i, .load r.state.mem (place i) = initial i)
    (hrun : Run (TaskStep place call) r acts r') :
    ∀ i, .load r'.state.mem (place i) = leftOff initial acts i := by
  refine hrun.history
    (I := fun acts r => ∀ i, .load r.state.mem (place i) = leftOff initial acts i) hstart ?_
  intro past r act r' hpast hstep i
  cases hstep with
  | compute hkeep =>
    rw [leftOff_compute]
    exact (Aarch64TaskContext.load_congr (hkeep i)).trans (hpast i)
  | @switch task next s s' pc hne hcurrent hnext hreach =>
    obtain ⟨-, -, hmem, -⟩ := TaskStep.switched hplaced hcurrent hnext hreach
    rw [leftOff_switch]
    show Aarch64TaskContext.load s'.mem (place i) = _
    rw [hmem]
    by_cases hi : i = task
    · subst hi
      rw [Aarch64TaskContext.load_stored, Function.update_self]
    · rw [hplaced.load_other hi, Function.update_of_ne hi]
      exact hpast i

/-- A task that is switched to goes on in the context in which it left off. -/
theorem TaskStep.resumed (hplaced : Placed place)
    (hstart : ∀ i, .load r.state.mem (place i) = initial i)
    (hpast : Run (TaskStep place call) r acts r₁) {task next : τ} {before after : State ω}
    {pc : Word} (hstep : TaskStep place call r₁ (.switch task before next pc after) r') :
    Aarch64TaskContext.current after = leftOff initial acts next ∧
      pc = (leftOff initial acts next).lr ∧ after.pstate = before.pstate ∧
      after.sys = before.sys ∧ after.world = before.world := by
  cases hstep with
  | switch hne hcurrent hnext hreach =>
    obtain ⟨hpc, hregs, hmem, hpstate, hsys, hworld⟩ :=
      TaskStep.switched hplaced hcurrent hnext hreach
    have hresumed : Aarch64TaskContext.current after = leftOff initial acts next := by
      rw [hregs, hmem, hplaced.load_other hne]
      exact leftOff_of_run hplaced hstart hpast next
    exact ⟨hresumed, hpc.trans (congrArg _ hresumed), hpstate, hsys, hworld⟩

/-- Tasks are coroutines. In every run, in whatever order tasks compute and switch to each
other, a task that is switched to finds its callee-saved registers, its stack pointer and the
address at which it goes on as they were when it switched away last (a new task, as its
context was initialised), under the processor status, system registers and devices of the
task that switched; and from every state a switch to any other task runs through. -/
theorem coroutines_of_run (hplaced : Placed place)
    (hstart : ∀ i, .load r.state.mem (place i) = initial i)
    (hrun : Run (TaskStep place call) r acts r') :
    (∀ past rest task before next pc after,
      acts = past ++ .switch task before next pc after :: rest →
      Aarch64TaskContext.current after = leftOff initial past next ∧
      pc = (leftOff initial past next).lr ∧ after.pstate = before.pstate ∧
      after.sys = before.sys ∧ after.world = before.world) ∧
    ∀ next, next ≠ r'.task → r'.state.x 0 = place r'.task → r'.state.x 1 = place next →
      ∃ pc after, TaskStep place call r' (.switch r'.task r'.state next pc after)
        ⟨next, after⟩ := by
  constructor
  · rintro past rest task before next pc after rfl
    obtain ⟨r₁, hpast, htail⟩ := hrun.split
    cases htail with
    | cons hstep _ => exact hstep.resumed hplaced hstart hpast
  · intro next hne hcurrent hnext
    exact TaskStep.exists_switch hplaced hne hcurrent hnext

end Runs

/-! ### Two tasks -/

/-- The contexts of an idle task and of a user task. -/
def twoPlaces : Bool → Word
  | false => 0x1000
  | true => 0x1200

theorem twoPlaces_placed : Placed twoPlaces where
  aligned i := by cases i <;> rfl
  apart i j hne off hoff off' hoff' heq := by
    unfold Aarch64TaskContext.size at hoff hoff'
    have hsame := congrArg BitVec.toNat heq
    cases i <;> cases j <;> simp [twoPlaces, BitVec.toNat_add] at hne hsame <;> omega

/-- The user task's context as it was created. -/
def newUserContext : Aarch64TaskContext :=
  .initUserContext default 0xffffffff40081000 0x400000 0x7ffff0 0xffffffff40200000

/-- The idle task is about to switch to the user task. -/
def aboutToSwitch : OnCpu Bool Unit where
  task := false
  state := {
    x := fun r => if r = 0 then 0x1000 else if r = 1 then 0x1200 else 7
    v := fun _ => 7
    sps := fun _ => 0xffffffff40100000
    pstate := 0x3c5
    sys := fun _ => 0
    mem := storeAll (fun _ => 0) 0x1200 newUserContext.words
    world := () }

/-- The contexts in memory at that point. -/
def initialContexts (i : Bool) : Aarch64TaskContext :=
  .load aboutToSwitch.state.mem (twoPlaces i)

theorem initialContexts_true : initialContexts true = newUserContext :=
  Aarch64TaskContext.load_stored newUserContext

theorem coroutines_of_run_two : ∃ pc after,
    TaskStep twoPlaces (fun f _ => nomatch f) aboutToSwitch
      (.switch false aboutToSwitch.state true pc after) ⟨true, after⟩ ∧
    Aarch64TaskContext.current after = newUserContext ∧ pc = 0xffffffff40081000 := by
  obtain ⟨pc, after, hstep⟩ := (coroutines_of_run twoPlaces_placed (fun i => rfl :
    ∀ i, .load aboutToSwitch.state.mem (twoPlaces i) = initialContexts i)
    (Run.nil aboutToSwitch)).2 true (by decide) rfl rfl
  obtain ⟨hregs, hpc, -⟩ := (coroutines_of_run twoPlaces_placed (fun i => rfl :
    ∀ i, .load aboutToSwitch.state.mem (twoPlaces i) = initialContexts i)
    (Run.single hstep)).1 [] [] _ _ _ _ _ rfl
  refine ⟨pc, after, hstep, hregs.trans initialContexts_true, hpc.trans ?_⟩
  exact congrArg Aarch64TaskContext.lr initialContexts_true

/-! ## The first entry to EL0 -/

/-- `mov xN, xzr` for all general registers, and `movi vN.2d, #0` for all vectors. -/
def scrub : List Instr :=
  (List.finRange 31).map (fun r => .movImm r 0) ++ (List.finRange 32).map .moviZero

def enterEl0 : List (Line Empty Empty) :=
  [.op (.msr .spEl0 20),
    .op (.msr .elrEl1 19),
    .op (.movImm 8 0x3c0),
    .op (.msr .spsrEl1 8)] ++
  (scrub.map .op ++
  [.op (.msrZero .fpcr),
    .op (.msrZero .fpsr),
    .op (.msrZero .tpidrEl0),
    .op (.msrZero .tpidrroEl0),
    .eret .elrEl1 .spsrEl1])

/-- What EL0 sees of the processor. -/
structure El0View where
  x : Reg → Word
  v : VReg → BitVec 128
  sp : Word
  pstate : Word
  fpcr : Word
  fpsr : Word
  tpidr : Word
  tpidrro : Word

def El0View.of {ω : Type} (s : State ω) : El0View :=
  ⟨s.x, s.v, s.sps 0, s.pstate, s.sys .fpcr, s.sys .fpsr, s.sys .tpidrEl0, s.sys .tpidrroEl0⟩

/-- The view of a task that has done nothing yet: cleared registers, its stack pointer, and
EL0 with exceptions masked. -/
def El0View.fresh (userSp : Word) : El0View :=
  ⟨fun _ => 0, fun _ => 0, userSp, 0x3c0, 0, 0, 0, 0⟩

section Entry

variable {ω : Type} {s : State ω}

theorem movImm_exec (l : List Reg) : execAll (l.map fun r => .movImm r 0) s =
    some { s with x := fun r => if r ∈ l then 0 else s.x r } := by
  induction l generalizing s with
  | nil => simp [execAll]
  | cons r l ih =>
    rw [List.map_cons, execAll_cons (t := s.setX r 0) rfl, ih]
    congr 2
    funext r'
    by_cases hr : r' = r
    · simp [hr, State.setX]
    · simp [hr, State.setX]

theorem moviZero_exec (l : List VReg) : execAll (l.map .moviZero) s =
    some { s with v := fun r => if r ∈ l then 0 else s.v r } := by
  induction l generalizing s with
  | nil => simp [execAll]
  | cons r l ih =>
    rw [List.map_cons, execAll_cons (t := { s with v := Function.update s.v r 0 }) rfl, ih]
    congr 2
    funext r'
    by_cases hr : r' = r
    · simp [hr]
    · simp [hr]

theorem scrub_exec (s : State ω) :
    execAll scrub s = some { s with x := fun _ => 0, v := fun _ => 0 } := by
  unfold scrub
  rw [execAll_append (movImm_exec _), moviZero_exec]
  simp

/-- Whatever is in the other registers, EL0 starts at the address in `x19` with the stack
pointer in `x20` and a cleared register file. -/
theorem enterEl0_leads (call : Empty → State ω → Option (State ω)) (s : State ω) :
    ∃ s', Leads enterEl0 call (.at enterEl0 s) (.exit (.goto (s.x 19) s')) ∧
      El0View.of s' = .fresh (s.x 20) ∧ (∀ i, i ≠ 0 → s'.sps i = s.sps i) ∧
      s'.mem = s.mem ∧ s'.world = s.world := by
  obtain ⟨s₁, hfirst, helr, hspsr, hsps, hmem, hworld⟩ : ∃ s₁,
      execAll [.msr .spEl0 20, .msr .elrEl1 19, .movImm 8 0x3c0, .msr .spsrEl1 8] s = some s₁ ∧
        s₁.sys .elrEl1 = s.x 19 ∧ s₁.sys .spsrEl1 = 0x3c0 ∧
        s₁.sps = Function.update s.sps 0 (s.x 20) ∧ s₁.mem = s.mem ∧ s₁.world = s.world :=
    ⟨_, rfl, rfl, rfl, rfl, rfl, rfl⟩
  obtain ⟨s₂, hs₂⟩ : ∃ s₂, s₂ = { s₁ with x := fun _ => 0, v := fun _ => 0 } := ⟨_, rfl⟩
  have hscrub : execAll scrub s₁ = some s₂ := by rw [scrub_exec, hs₂]
  obtain ⟨s₃, hlast, hview, helr₃, hspsr₃, hsps₃, hmem₃, hworld₃⟩ : ∃ s₃,
      execAll [.msrZero .fpcr, .msrZero .fpsr, .msrZero .tpidrEl0, .msrZero .tpidrroEl0] s₂ =
        some s₃ ∧ El0View.of s₃ = ⟨s₂.x, s₂.v, s₂.sps 0, s₂.pstate, 0, 0, 0, 0⟩ ∧
        s₃.sys .elrEl1 = s₂.sys .elrEl1 ∧ s₃.sys .spsrEl1 = s₂.sys .spsrEl1 ∧
        s₃.sps = s₂.sps ∧ s₃.mem = s₂.mem ∧ s₃.world = s₂.world :=
    ⟨_, rfl, rfl, rfl, rfl, rfl, rfl, rfl⟩
  rw [hs₂] at hview helr₃ hspsr₃ hsps₃ hmem₃ hworld₃
  refine ⟨s₃.returned .spsrEl1, ?_, ?_, fun i hi => ?_, ?_, ?_⟩
  · have hpc : s₃.sys .elrEl1 = s.x 19 := helr₃.trans helr
    rw [← hpc]
    exact (Leads.block hfirst).trans ((Leads.block hscrub).trans
      ((Leads.block hlast).trans (Leads.eret .elrEl1 .spsrEl1)))
  · have hpstate : (s₃.returned .spsrEl1).pstate = 0x3c0 := hspsr₃.trans hspsr
    have hsp : s₁.sps 0 = s.x 20 := by rw [hsps, Function.update_self]
    injection hview with hx hv hsp₃ _ hfpcr hfpsr htpidr htpidrro
    unfold El0View.of El0View.fresh
    congr 1
    exact hsp₃.trans hsp
  · show s₃.sps i = _
    rw [hsps₃, hsps, Function.update_of_ne hi]
  · exact hmem₃.trans hmem
  · exact hworld₃.trans hworld

end Entry

section FirstEntry

variable {τ ω : Type} [DecidableEq τ] {place : τ → Word} {call : Empty → State ω → Option (State ω)}
  {r r' : OnCpu τ ω} {initial : τ → Aarch64TaskContext}

/-- The task that an act switches to. -/
def TaskAct.into : TaskAct τ ω → Option τ
  | .compute => none
  | .switch _ _ next _ _ => some next

/-- A task that has not been switched to is where it was created. -/
theorem leftOff_of_new {task : τ} {past : List (TaskAct τ ω)} (hnew : r.task ≠ task)
    (hrun : Run (TaskStep place call) r past r') (hfirst : ∀ act ∈ past, act.into ≠ some task) :
    leftOff initial past task = initial task := by
  have hhistory := hrun.history (I := fun past r => (∀ act ∈ past, act.into ≠ some task) →
    leftOff initial past task = initial task ∧ r.task ≠ task) (fun _ => ⟨rfl, hnew⟩) ?_
  · exact (hhistory hfirst).1
  intro past r act r' hpast hstep hacts
  obtain ⟨hleft, htask⟩ := hpast fun a ha => hacts a (List.mem_append_left _ ha)
  have hact := hacts act (List.mem_append_right _ (List.mem_singleton.mpr rfl))
  cases hstep with
  | compute _ =>
    rw [leftOff_compute]
    exact ⟨hleft, htask⟩
  | @switch from' next s s' pc _ _ _ _ =>
    rw [leftOff_switch, Function.update_of_ne (Ne.symm htask)]
    exact ⟨hleft, fun heq => hact (congrArg some heq)⟩

/-- The first time that a task is switched to, it goes on in the context it was created with. -/
theorem first_switch (hplaced : Placed place)
    (hstart : ∀ i, .load r.state.mem (place i) = initial i)
    {past : List (TaskAct τ ω)} {task from' : τ} {before after : State ω} {pc : Word}
    (hrun : Run (TaskStep place call) r (past ++ [.switch from' before task pc after]) r')
    (hnew : r.task ≠ task) (hfirst : ∀ act ∈ past, act.into ≠ some task) :
    Aarch64TaskContext.current after = initial task ∧ pc = (initial task).lr ∧
      after.pstate = before.pstate ∧ after.world = before.world := by
  obtain ⟨r₁, hpast, hlast⟩ := hrun.split
  have hleft : leftOff initial past task = initial task := leftOff_of_new hnew hpast hfirst
  cases hlast with
  | cons hstep _ =>
    obtain ⟨hctx, hpc, hpstate, -, hworld⟩ := hstep.resumed hplaced hstart hpast
    rw [hleft] at hctx hpc
    exact ⟨hctx, hpc, hpstate, hworld⟩

/-- The first time that a kernel task is switched to, it is at its entry point, on its own
stack. -/
theorem first_kernel_entry (hplaced : Placed place)
    (hstart : ∀ i, .load r.state.mem (place i) = initial i)
    {past : List (TaskAct τ ω)} {task from' : τ} {before after : State ω} {pc : Word}
    (hrun : Run (TaskStep place call) r (past ++ [.switch from' before task pc after]) r')
    (hnew : r.task ≠ task) (hfirst : ∀ act ∈ past, act.into ≠ some task)
    {ctx : Aarch64TaskContext} {entry stackTop : Word}
    (hinitial : initial task = .initContext ctx entry stackTop) :
    pc = entry ∧ after.sp = stackTop := by
  obtain ⟨hctx, hpc, -, -⟩ := first_switch hplaced hstart hrun hnew hfirst
  rw [hinitial] at hctx hpc
  exact ⟨hpc, congrArg Aarch64TaskContext.sp hctx⟩

/-- The first time that a user task is switched to, whatever other tasks have run before it and
left in the registers, it is in `enter_el0`, and gets to EL0 at its entry point with its own
stack pointer, everything else that EL0 sees of the processor cleared, and its kernel stack
for the exceptions it will take. -/
theorem first_entry (hplaced : Placed place) (hstart : ∀ i, .load r.state.mem (place i) = initial i)
    {past : List (TaskAct τ ω)} {task from' : τ} {before after : State ω} {pc : Word}
    (hrun : Run (TaskStep place call) r (past ++ [.switch from' before task pc after]) r')
    (hnew : r.task ≠ task) (hfirst : ∀ act ∈ past, act.into ≠ some task)
    {ctx : Aarch64TaskContext} {enterEl0Addr entry userSp kernelStackTop : Word}
    (hinitial : initial task = .initUserContext ctx enterEl0Addr entry userSp kernelStackTop)
    (hel : el before.pstate = 1) (hspSel : spSel before.pstate = true) :
    pc = enterEl0Addr ∧ ∃ s, Leads enterEl0 call (.at enterEl0 after) (.exit (.goto entry s)) ∧
      El0View.of s = .fresh userSp ∧ s.sps 1 = kernelStackTop ∧ s.mem = after.mem ∧
      s.world = before.world := by
  obtain ⟨hctx, rfl, hpstate, hworld⟩ := first_switch hplaced hstart hrun hnew hfirst
  rw [hinitial] at hctx ⊢
  have hentry : after.x 19 = entry :=
    congrFun (congrArg Aarch64TaskContext.x19_x28 hctx) 0
  have huser : after.x 20 = userSp :=
    congrFun (congrArg Aarch64TaskContext.x19_x28 hctx) 1
  have hkernel : after.sps 1 = kernelStackTop := by
    have hsp : after.sp = kernelStackTop := congrArg Aarch64TaskContext.sp hctx
    rwa [State.sp, State.spIndex, hpstate, hspSel, if_pos rfl, hel] at hsp
  refine ⟨rfl, ?_⟩
  obtain ⟨s, hrun, hview, hsps, hmemS, hworldS⟩ := enterEl0_leads call after
  rw [hentry] at hrun
  rw [huser] at hview
  exact ⟨s, hrun, hview, (hsps 1 (by decide)).trans hkernel, hmemS, hworldS.trans hworld⟩

theorem first_entry_two : ∃ pc after s, Leads enterEl0 (fun f _ => nomatch f)
    (.at enterEl0 after) (.exit (.goto 0x400000 s)) ∧ El0View.of s = .fresh 0x7ffff0 ∧
    TaskStep twoPlaces (fun f _ => nomatch f) aboutToSwitch
      (.switch false aboutToSwitch.state true pc after) ⟨true, after⟩ := by
  obtain ⟨pc, after, hstep⟩ : ∃ pc after, TaskStep twoPlaces (fun f _ => nomatch f) aboutToSwitch
      (.switch false aboutToSwitch.state true pc after) ⟨true, after⟩ :=
    TaskStep.exists_switch twoPlaces_placed (by decide) rfl rfl
  have hrun : Run (TaskStep twoPlaces fun f _ => nomatch f) aboutToSwitch
      ([] ++ [.switch false aboutToSwitch.state true pc after]) ⟨true, after⟩ := Run.single hstep
  obtain ⟨-, s, hentry, hview, -⟩ := first_entry twoPlaces_placed (fun i => rfl :
    ∀ i, .load aboutToSwitch.state.mem (twoPlaces i) = initialContexts i) hrun (by decide)
    (fun _ h => nomatch h) initialContexts_true (by decide) (by decide)
  exact ⟨pc, after, s, hentry, hview, hstep⟩

end FirstEntry

end Tyrne
