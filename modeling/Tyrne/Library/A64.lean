import Mathlib.Data.List.Nodup
import Mathlib.Logic.Function.Basic
import Mathlib.Data.BitVec
import Mathlib.Logic.Relation
import Mathlib.Tactic.Common
import Mathlib.Tactic.IntervalCases

/-!
# A fragment of the A64 machine

The instructions that context switches, exception handlers and start-up code are written
in, over a state of general registers, vector registers, stack pointers, system registers
and memory. A listing is a list of labels, instructions and branches; what is left of it is
the program counter. An access that is not aligned has no result. Functions that a listing
calls are given by what they do to the state; the rest of the machine is the `world`.
-/

namespace A64

abbrev Word := BitVec 64
/-- `x0` to `x30`. -/
abbrev Reg := Fin 31
/-- `v0` to `v31`. -/
abbrev VReg := Fin 32

-- numerals name registers and exception levels
instance neZero_regs : NeZero 31 := ⟨by decide⟩
instance neZero_vregs : NeZero 32 := ⟨by decide⟩
instance neZero_levels : NeZero 4 := ⟨by decide⟩

inductive SysReg
  | currentEl
  | spEl0
  | elrEl1
  | spsrEl1
  | esrEl1
  | cpacrEl1
  | elrEl2
  | spsrEl2
  | hcrEl2
  | fpcr
  | fpsr
  | tpidrEl0
  | tpidrroEl0
  deriving DecidableEq, Repr

structure State (ω : Type) where
  x : Reg → Word
  v : VReg → BitVec 128
  /-- `SP_EL0` to `SP_EL3`. -/
  sps : Fin 4 → Word
  /-- `PSTATE`, in the layout of a saved program status. -/
  pstate : Word
  sys : SysReg → Word
  /-- The doubleword at an aligned address. -/
  mem : Word → Word
  world : ω

variable {ω : Type}

/-! ## Fields of the program status -/

/-- The exception level, bits 2 and 3. -/
def el (p : Word) : Fin 4 :=
  match p.getLsbD 3, p.getLsbD 2 with
  | false, false => 0
  | false, true => 1
  | true, false => 2
  | true, true => 3

/-- Whether the level uses a stack pointer of its own, bit 0. -/
def spSel (p : Word) : Bool := p.getLsbD 0

/-- The zero flag. -/
def zero (p : Word) : Bool := p.getLsbD 30

/-- The carry flag: after a comparison, no borrow. -/
def carry (p : Word) : Bool := p.getLsbD 29

/-- The bits of the four condition flags. -/
def flagBits : Word := 0xf0000000

/-- The four flags of `a - b`. -/
def flags (a b : Word) : Word :=
  (if (a - b).msb then 0x80000000 else 0) ||| (if a = b then 0x40000000 else 0) |||
    (if b ≤ a then 0x20000000 else 0) |||
    (if BitVec.ssubOverflow a b then 0x10000000 else 0)

/-- The status after a comparison. -/
def compare (p a b : Word) : Word := (p &&& ~~~flagBits) ||| flags a b

/-- The status on entry to an exception that EL1 takes: EL1 with its own stack pointer and
all exceptions masked. -/
def exceptionStatus (p : Word) : Word := (p &&& flagBits) ||| 0x3c5

section Status

variable {p a b : Word}

theorem getLsbD_ite (c : Prop) [Decidable c] (w : Word) (i : ℕ) :
    (if c then w else 0).getLsbD i = (decide c && w.getLsbD i) := by
  by_cases hc : c <;> simp [hc]

theorem flags_low {i : ℕ} (hi : i < 28) : (flags a b).getLsbD i = false := by
  unfold flags
  simp only [BitVec.getLsbD_or, getLsbD_ite]
  interval_cases i <;> simp

theorem compare_low {i : ℕ} (hi : i < 28) : (compare p a b).getLsbD i = p.getLsbD i := by
  have hmask : (~~~flagBits).getLsbD i = true := by
    unfold flagBits
    interval_cases i <;> rfl
  unfold compare
  rw [BitVec.getLsbD_or, flags_low hi, BitVec.getLsbD_and, hmask]
  simp

@[simp] theorem el_compare : el (compare p a b) = el p := by
  unfold el
  rw [compare_low (by decide), compare_low (by decide)]

@[simp] theorem spSel_compare : spSel (compare p a b) = spSel p := compare_low (by decide)

@[simp] theorem zero_compare : zero (compare p a b) = decide (a = b) := by
  unfold zero compare flags flagBits
  simp only [BitVec.getLsbD_or, BitVec.getLsbD_and, getLsbD_ite]
  simp

@[simp] theorem carry_compare : carry (compare p a b) = decide (b ≤ a) := by
  unfold carry compare flags flagBits
  simp only [BitVec.getLsbD_or, BitVec.getLsbD_and, getLsbD_ite]
  simp

theorem exceptionStatus_low {i : ℕ} (hi : i < 28) :
    (exceptionStatus p).getLsbD i = (0x3c5 : Word).getLsbD i := by
  have hmask : flagBits.getLsbD i = false := by
    unfold flagBits
    interval_cases i <;> rfl
  unfold exceptionStatus
  rw [BitVec.getLsbD_or, BitVec.getLsbD_and, hmask]
  simp

@[simp] theorem el_exceptionStatus : el (exceptionStatus p) = 1 := by
  unfold el
  rw [exceptionStatus_low (by decide), exceptionStatus_low (by decide)]
  rfl

@[simp] theorem spSel_exceptionStatus : spSel (exceptionStatus p) = true :=
  exceptionStatus_low (by decide)

end Status

namespace State

/-- The stack pointer in use. -/
def spIndex (s : State ω) : Fin 4 := if spSel s.pstate then el s.pstate else 0

def sp (s : State ω) : Word := s.sps s.spIndex

def setSp (s : State ω) (w : Word) : State ω :=
  { s with sps := Function.update s.sps s.spIndex w }

def setX (s : State ω) (r : Reg) (w : Word) : State ω :=
  { s with x := Function.update s.x r w }

def setMem (s : State ω) (m : Word → Word) : State ω := { s with mem := m }

def readSys (s : State ω) : SysReg → Word
  | .currentEl => BitVec.ofNat 64 (4 * (el s.pstate).val)
  | .spEl0 => s.sps 0
  | sr => s.sys sr

def writeSys (s : State ω) (sr : SysReg) (w : Word) : State ω :=
  match sr with
  | .spEl0 => { s with sps := Function.update s.sps 0 w }
  | sr => { s with sys := Function.update s.sys sr w }

/-- The state an exception return leads to. -/
def returned (s : State ω) (spsr : SysReg) : State ω := { s with pstate := s.readSys spsr }

/-- EL1 takes an exception whose preferred return address is `pc`; a synchronous one has a
syndrome. -/
def takeException (s : State ω) (pc : Word) (esr : Option Word) : State ω :=
  { s with
    sys := fun sr =>
      match sr, esr with
      | .elrEl1, _ => pc
      | .spsrEl1, _ => s.pstate
      | .esrEl1, some w => w
      | sr, _ => s.sys sr
    pstate := exceptionStatus s.pstate }

end State

/-! ## Instructions -/

/-- A base register of a load or a store, or an operand that may be the stack pointer. -/
inductive Base
  | sp
  | x (r : Reg)
  deriving DecidableEq, Repr

/-- A register that a pair transfer moves: a general one, or the low half of a vector. -/
inductive Operand
  | x (r : Reg)
  | d (r : VReg)
  deriving DecidableEq, Repr

namespace State

def base (s : State ω) : Base → Word
  | .sp => s.sp
  | .x r => s.x r

def setBase (s : State ω) (n : Base) (w : Word) : State ω :=
  match n with
  | .sp => s.setSp w
  | .x r => s.setX r w

def read (s : State ω) : Operand → Word
  | .x r => s.x r
  | .d r => (s.v r).setWidth 64

def write (s : State ω) (o : Operand) (w : Word) : State ω :=
  match o with
  | .x r => s.setX r w
  | .d r => { s with v := Function.update s.v r (w.setWidth 128) }

/-- The doubleword address of an access; through the stack pointer only when that is
aligned to 16 bytes. -/
def address (s : State ω) (n : Base) (off : ℕ) : Option Word :=
  let a := s.base n + BitVec.ofNat 64 off
  if (n = .sp → s.sp.toNat % 16 = 0) ∧ a.toNat % 8 = 0 then some a else none

end State

inductive Instr
  /-- `stp t₁, t₂, [n, #off]` -/
  | stp (t₁ t₂ : Operand) (n : Base) (off : ℕ)
  | ldp (t₁ t₂ : Operand) (n : Base) (off : ℕ)
  | str (t : Operand) (n : Base) (off : ℕ)
  | ldr (t : Operand) (n : Base) (off : ℕ)
  /-- `str xzr, [n], #off` -/
  | strZeroPost (n : Reg) (off : ℕ)
  | add (d n : Base) (imm : Word)
  | sub (d n : Base) (imm : Word)
  | mov (d n : Base)
  /-- `mov d, #imm`; `mov d, xzr` -/
  | movImm (d : Reg) (imm : Word)
  /-- `movi d.2d, #0` -/
  | moviZero (d : VReg)
  | lsr (d n : Reg) (shift : ℕ)
  | and (d n : Reg) (imm : Word)
  | cmpImm (n : Reg) (imm : Word)
  | cmp (n m : Reg)
  | mrs (t : Reg) (sr : SysReg)
  | msr (sr : SysReg) (t : Reg)
  /-- `msr sr, xzr` -/
  | msrZero (sr : SysReg)
  /-- `msr daifset, #imm` -/
  | daifSet (imm : BitVec 4)
  /-- `adrp d, sym; add d, d, :lo12:sym` -/
  | adr (d : Reg) (sym : Word)
  | isb
  | wfe
  deriving DecidableEq, Repr

/-- The state after an instruction that is not a branch. -/
def Instr.exec (s : State ω) : Instr → Option (State ω)
  | .stp t₁ t₂ n off => (s.address n off).map fun a =>
    { s with mem := Function.update (Function.update s.mem a (s.read t₁)) (a + 8) (s.read t₂) }
  | .ldp t₁ t₂ n off => (s.address n off).map fun a =>
    (s.write t₁ (s.mem a)).write t₂ (s.mem (a + 8))
  | .str t n off => (s.address n off).map fun a =>
    { s with mem := Function.update s.mem a (s.read t) }
  | .ldr t n off => (s.address n off).map fun a => s.write t (s.mem a)
  | .strZeroPost n off => (s.address (.x n) 0).map fun a =>
    { s with mem := Function.update s.mem a 0 }.setX n (a + BitVec.ofNat 64 off)
  | .add d n imm => some (s.setBase d (s.base n + imm))
  | .sub d n imm => some (s.setBase d (s.base n - imm))
  | .mov d n => some (s.setBase d (s.base n))
  | .movImm d imm => some (s.setX d imm)
  | .moviZero d => some { s with v := Function.update s.v d 0 }
  | .lsr d n shift => some (s.setX d (s.x n >>> shift))
  | .and d n imm => some (s.setX d (s.x n &&& imm))
  | .cmpImm n imm => some { s with pstate := compare s.pstate (s.x n) imm }
  | .cmp n m => some { s with pstate := compare s.pstate (s.x n) (s.x m) }
  | .mrs t sr => some (s.setX t (s.readSys sr))
  | .msr sr t => some (s.writeSys sr (s.x t))
  | .msrZero sr => some (s.writeSys sr 0)
  | .daifSet imm => some { s with pstate := s.pstate ||| (imm.setWidth 64 <<< 6) }
  | .adr d sym => some (s.setX d sym)
  | .isb => some s
  | .wfe => some s

/-- The state after the instructions of a block. -/
def execAll : List Instr → State ω → Option (State ω)
  | [], s => some s
  | i :: is, s => (i.exec s).bind (execAll is)

theorem execAll_cons {i : Instr} {is : List Instr} {s t : State ω} (h : i.exec s = some t) :
    execAll (i :: is) s = execAll is t := by
  simp only [execAll, h, Option.bind_some]

theorem execAll_append {is is' : List Instr} {s t : State ω} (h : execAll is s = some t) :
    execAll (is ++ is') s = execAll is' t := by
  induction is generalizing s with
  | nil =>
    cases h
    rfl
  | cons i is ih =>
    cases hi : i.exec s with
    | none => simp [execAll, hi] at h
    | some s₂ =>
      rw [List.cons_append, execAll_cons hi]
      rw [execAll_cons hi] at h
      exact ih h

/-! ## Listings -/

inductive Cond
  | eq
  | ne
  | hs
  deriving DecidableEq, Repr

def Cond.holds (p : Word) : Cond → Bool
  | .eq => zero p
  | .ne => !zero p
  | .hs => carry p

/-- A line of a listing with labels `ℓ` that calls the functions `φ`. -/
inductive Line (ℓ φ : Type)
  | label (l : ℓ)
  | op (i : Instr)
  | b (l : ℓ)
  | bCond (c : Cond) (l : ℓ)
  | bl (f : φ)
  | ret
  /-- `eret` at EL1 or EL2, through the saved status and the link register of the level. -/
  | eret (elr spsr : SysReg)
  deriving DecidableEq, Repr

/-- How control leaves a listing: to an address, or into a function that does not return. -/
inductive Exit (φ ω : Type)
  | goto (pc : Word) (s : State ω)
  | noReturn (f : φ) (s : State ω)

/-- A point of a run: what is left of the listing, or how it was left. -/
inductive Config (ℓ φ ω : Type)
  | at (rest : List (Line ℓ φ)) (s : State ω)
  | exit (e : Exit φ ω)

variable {ℓ φ : Type} [DecidableEq ℓ]

/-- The listing from a label on. -/
def after (code : List (Line ℓ φ)) (l : ℓ) : List (Line ℓ φ) :=
  match code with
  | [] => []
  | .label l' :: rest => if l' = l then rest else after rest l
  | _ :: rest => after rest l

/-- One step. There is none from an exit, past the end, or when an instruction has no
result. A call leaves `x30` to the function called. -/
def step (code : List (Line ℓ φ)) (call : φ → State ω → Option (State ω)) :
    Config ℓ φ ω → Option (Config ℓ φ ω)
  | .exit _ => none
  | .at [] _ => none
  | .at (.label _ :: rest) s => some (.at rest s)
  | .at (.op i :: rest) s => (i.exec s).map (.at rest)
  | .at (.b l :: _) s => some (.at (after code l) s)
  | .at (.bCond c l :: rest) s =>
    if c.holds s.pstate then some (.at (after code l) s) else some (.at rest s)
  | .at (.bl f :: rest) s =>
    match call f s with
    | some s' => some (.at rest s')
    | none => some (.exit (.noReturn f s))
  | .at (.ret :: _) s => some (.exit (.goto (s.x 30) s))
  | .at (.eret elr spsr :: _) s => some (.exit (.goto (s.readSys elr) (s.returned spsr)))

variable {code : List (Line ℓ φ)} {call : φ → State ω → Option (State ω)}

/-- The run from `c` passes through `c'`. -/
def Leads (code : List (Line ℓ φ)) (call : φ → State ω → Option (State ω))
    (c c' : Config ℓ φ ω) : Prop :=
  Relation.ReflTransGen (fun c c' => step code call c = some c') c c'

namespace Leads

variable {c c' c'' : Config ℓ φ ω} {rest : List (Line ℓ φ)} {s s' : State ω}

theorem refl (c : Config ℓ φ ω) : Leads code call c c := Relation.ReflTransGen.refl

theorem trans (h : Leads code call c c') (h' : Leads code call c' c'') :
    Leads code call c c'' := Relation.ReflTransGen.trans h h'

theorem head (h : step code call c = some c') (h' : Leads code call c' c'') :
    Leads code call c c'' := Relation.ReflTransGen.head h h'

/-- A block of instructions runs through. -/
theorem block {l : List Instr} (h : execAll l s = some s') :
    Leads code call (.at (l.map .op ++ rest) s) (.at rest s') := by
  induction l generalizing s with
  | nil =>
    cases h
    exact refl _
  | cons i l ih =>
    cases hi : i.exec s with
    | none => simp [execAll, hi] at h
    | some s₁ =>
      rw [execAll_cons hi] at h
      have hstep : step code call (.at ((i :: l).map .op ++ rest) s) =
          some (.at (l.map .op ++ rest) s₁) := by simp [step, hi]
      exact head hstep (ih h)

theorem label (l : ℓ) : Leads code call (.at (.label l :: rest) s) (.at rest s) :=
  head rfl (refl _)

theorem b (l : ℓ) : Leads code call (.at (.b l :: rest) s) (.at (after code l) s) :=
  head rfl (refl _)

theorem taken {cond : Cond} (l : ℓ) (h : cond.holds s.pstate = true) :
    Leads code call (.at (.bCond cond l :: rest) s) (.at (after code l) s) :=
  head (by simp [step, h]) (refl _)

theorem notTaken {cond : Cond} (l : ℓ) (h : cond.holds s.pstate = false) :
    Leads code call (.at (.bCond cond l :: rest) s) (.at rest s) :=
  head (by simp [step, h]) (refl _)

theorem bl {f : φ} (h : call f s = some s') :
    Leads code call (.at (.bl f :: rest) s) (.at rest s') :=
  head (by simp [step, h]) (refl _)

theorem bl_noReturn {f : φ} (h : call f s = none) :
    Leads code call (.at (.bl f :: rest) s) (.exit (.noReturn f s)) :=
  head (by simp [step, h]) (refl _)

theorem ret : Leads code call (.at (.ret :: rest) s) (.exit (.goto (s.x 30) s)) :=
  head rfl (refl _)

theorem eret (elr spsr : SysReg) : Leads code call (.at (.eret elr spsr :: rest) s)
    (.exit (.goto (s.readSys elr) (s.returned spsr))) :=
  head rfl (refl _)

/-- A run has at most one exit: where it leaves the listing, it has left it. -/
theorem exit_unique {e e' : Exit φ ω} (h : Leads code call c (.exit e))
    (h' : Leads code call c (.exit e')) : e = e' := by
  induction h using Relation.ReflTransGen.head_induction_on with
  | refl =>
    cases h'.cases_head with
    | inl heq =>
      cases heq
      rfl
    | inr hnext =>
      obtain ⟨_, hstep, _⟩ := hnext
      cases hstep
  | head hstep _ ih =>
    cases h'.cases_head with
    | inl heq =>
      subst heq
      cases hstep
    | inr hnext =>
      obtain ⟨c₁, hstep', hrest⟩ := hnext
      rw [hstep] at hstep'
      cases hstep'
      exact ih hrest

end Leads

/-- The run from `c` goes on for ever within the listing and never changes the state. -/
def Parks (code : List (Line ℓ φ)) (call : φ → State ω → Option (State ω))
    (c : Config ℓ φ ω) (s : State ω) : Prop :=
  ∀ c', Leads code call c c' → ∃ rest, c' = .at rest s ∧ (step code call c').isSome

/-- Where a run comes to such a loop, it does not leave the listing. -/
theorem Parks.never_exits {c c' : Config ℓ φ ω} {s : State ω} (hparks : Parks code call c' s)
    (hreach : Leads code call c c') (e : Exit φ ω) : ¬ Leads code call c (.exit e) := by
  intro hexit
  have hunique : Relator.RightUnique fun c c' : Config ℓ φ ω => step code call c = some c' := by
    intro a b b' hb hb'
    rw [hb] at hb'
    exact Option.some.inj hb'
  rcases Relation.ReflTransGen.total_of_right_unique hunique hreach hexit with hafter | hbefore
  · obtain ⟨_, heq, _⟩ := hparks _ hafter
    cases heq
  · cases hbefore.cases_head with
    | inl heq =>
      obtain ⟨_, hat, _⟩ := hparks c' (Leads.refl c')
      rw [← heq] at hat
      cases hat
    | inr hnext =>
      obtain ⟨_, hstep, _⟩ := hnext
      cases hstep

/-- A loop that waits for events. -/
theorem parks_wfe {l : ℓ} {rest : List (Line ℓ φ)} (s : State ω)
    (hloop : after code l = .op .wfe :: .b l :: rest) :
    Parks code call (.at (after code l) s) s := by
  intro c' hreach
  have hinside : c' = .at (after code l) s ∨ c' = .at (.b l :: rest) s := by
    induction hreach with
    | refl => exact Or.inl rfl
    | tail _ hstep ih =>
      rcases ih with rfl | rfl
      · rw [hloop] at hstep
        cases hstep
        exact Or.inr rfl
      · cases hstep
        exact Or.inl rfl
  rcases hinside with rfl | rfl
  · exact ⟨_, rfl, by rw [hloop]; rfl⟩
  · exact ⟨_, rfl, rfl⟩

/-- A run in which control that leaves to the address of a label goes on there. -/
def Flows (code : List (Line ℓ φ)) (call : φ → State ω → Option (State ω)) (addr : ℓ → Word)
    (c c' : Config ℓ φ ω) : Prop :=
  Relation.ReflTransGen (fun c c' => step code call c = some c' ∨
    ∃ l s, c = .exit (.goto (addr l) s) ∧ c' = .at (after code l) s) c c'

namespace Flows

variable {addr : ℓ → Word} {c c' c'' : Config ℓ φ ω}

theorem of_leads (h : Leads code call c c') : Flows code call addr c c' :=
  Relation.ReflTransGen.mono (fun _ _ hstep => Or.inl hstep) _ _ h

theorem trans (h : Flows code call addr c c') (h' : Flows code call addr c' c'') :
    Flows code call addr c c'' := Relation.ReflTransGen.trans h h'

theorem lands (l : ℓ) (s : State ω) :
    Flows code call addr (.exit (.goto (addr l) s)) (.at (after code l) s) :=
  Relation.ReflTransGen.single (Or.inr ⟨l, s, rfl, rfl⟩)

end Flows

/-! ## What instructions leave alone -/

section Frames

variable {s : State ω} {w : Word} {o o' : Operand} {r : Reg}

@[simp] theorem write_read : (s.write o w).read o' = if o' = o then w else s.read o' := by
  cases o with
  | x r =>
    cases o' with
    | x r' =>
      by_cases hr : r' = r
      · subst hr
        simp [State.write, State.read, State.setX]
      · simp [State.write, State.read, State.setX, hr]
    | d r' => simp [State.write, State.read, State.setX]
  | d r =>
    cases o' with
    | x r' => simp [State.write, State.read]
    | d r' =>
      by_cases hr : r' = r
      · subst hr
        simp [State.write, State.read]
      · simp [State.write, State.read, hr]

@[simp] theorem write_mem : (s.write o w).mem = s.mem := by cases o <;> rfl
@[simp] theorem write_sps : (s.write o w).sps = s.sps := by cases o <;> rfl
@[simp] theorem write_pstate : (s.write o w).pstate = s.pstate := by cases o <;> rfl
@[simp] theorem write_sys : (s.write o w).sys = s.sys := by cases o <;> rfl
@[simp] theorem write_world : (s.write o w).world = s.world := by cases o <;> rfl

@[simp] theorem write_sp : (s.write o w).sp = s.sp := by cases o <;> rfl

@[simp] theorem setX_sp : (s.setX r w).sp = s.sp := rfl
@[simp] theorem setX_mem : (s.setX r w).mem = s.mem := rfl

@[simp] theorem setSp_sp : (s.setSp w).sp = w := Function.update_self ..

end Frames

/-! ## Calls -/

/-- What a function leaves where the procedure call standard does not bind it. -/
structure Scratch where
  x : Reg → Word
  v : VReg → BitVec 128
  spEl0 : Word
  flags : Word
  sys : SysReg → Word
  mem : Word → Word

/-- The registers that a function hands back as it found them. -/
def CalleeSaved : Operand → Prop
  | .x r => 19 ≤ r.val ∧ r.val ≤ 29
  | .d r => 8 ≤ r.val ∧ r.val ≤ 15

instance : DecidablePred CalleeSaved
  | .x _ => inferInstanceAs (Decidable (_ ∧ _))
  | .d _ => inferInstanceAs (Decidable (_ ∧ _))

/-- The state in which a function comes back that has kept the memory in `kept`: the
callee-saved registers, of `v8` to `v15` the low halves, and the stack pointer are as they
were. -/
def State.comesBack (s : State ω) (k : Scratch) (kept : Word → Prop) [DecidablePred kept]
    (world : ω) : State ω where
  x r := if CalleeSaved (.x r) then s.x r else k.x r
  v r := if CalleeSaved (.d r) then (k.v r).extractLsb' 64 64 ++ (s.v r).setWidth 64 else k.v r
  sps := Function.update s.sps 0 k.spEl0
  pstate := (s.pstate &&& ~~~flagBits) ||| (k.flags &&& flagBits)
  sys := k.sys
  mem a := if kept a then s.mem a else k.mem a
  world := world

section Calls

variable {s : State ω} {k : Scratch} {kept : Word → Prop} [DecidablePred kept] {w : ω}

theorem comesBack_low {i : ℕ} (hi : i < 28) :
    (s.comesBack k kept w).pstate.getLsbD i = s.pstate.getLsbD i := by
  have hmask : flagBits.getLsbD i = false := by
    unfold flagBits
    interval_cases i <;> rfl
  unfold State.comesBack
  dsimp only
  rw [BitVec.getLsbD_or, BitVec.getLsbD_and, BitVec.getLsbD_and, BitVec.getLsbD_not, hmask]
  simp [show i < 64 by omega]

@[simp] theorem el_comesBack : el (s.comesBack k kept w).pstate = el s.pstate := by
  unfold el
  rw [comesBack_low (by decide), comesBack_low (by decide)]

@[simp] theorem spSel_comesBack : spSel (s.comesBack k kept w).pstate = spSel s.pstate :=
  comesBack_low (by decide)

end Calls

/-! ## Saving and restoring registers -/

/-- The pair transfers of a save or a restore: two registers and the offset of the first. -/
abbrev Pairs := List (Operand × Operand × ℕ)

/-- Each register with the offset of its slot. -/
def slots (pairs : Pairs) : List (Operand × ℕ) :=
  pairs.flatMap fun p => [(p.1, p.2.2), (p.2.1, p.2.2 + 8)]

def stps (n : Base) (pairs : Pairs) : List Instr :=
  pairs.map fun p => .stp p.1 p.2.1 n p.2.2

def ldps (n : Base) (pairs : Pairs) : List Instr :=
  pairs.map fun p => .ldp p.1 p.2.1 n p.2.2

/-- The memory after the words are stored in their slots of the block at `b`. -/
def storeAll (m : Word → Word) (b : Word) : List (ℕ × Word) → Word → Word
  | [] => m
  | (off, w) :: rest => storeAll (Function.update m (b + BitVec.ofNat 64 off) w) b rest

/-- The state after the registers are loaded from their slots of the block at `b`. -/
def loadAll (b : Word) : List (Operand × ℕ) → State ω → State ω
  | [], s => s
  | (o, off) :: rest, s => loadAll b rest (s.write o (s.mem (b + BitVec.ofNat 64 off)))

/-- The slots and what a save puts there. -/
def saved (s : State ω) (l : List (Operand × ℕ)) : List (ℕ × Word) :=
  l.map fun p => (p.2, s.read p.1)

section Blocks

variable {s : State ω} {m m' : Word → Word} {a b : Word} {n : Base} {pairs : Pairs}
  {l : List (Operand × ℕ)} {o : Operand} {off : ℕ}

theorem slot_injective {off' : ℕ} (h : off < 2 ^ 64) (h' : off' < 2 ^ 64)
    (heq : b + BitVec.ofNat 64 off = b + BitVec.ofNat 64 off') : off = off' := by
  have hoff := congrArg BitVec.toNat (add_left_cancel heq)
  rwa [BitVec.toNat_ofNat, BitVec.toNat_ofNat, Nat.mod_eq_of_lt h, Nat.mod_eq_of_lt h'] at hoff

theorem storeAll_append {ws ws' : List (ℕ × Word)} :
    storeAll m b (ws ++ ws') = storeAll (storeAll m b ws) b ws' := by
  induction ws generalizing m with
  | nil => rfl
  | cons p ws ih => exact ih

theorem storeAll_other {ws : List (ℕ × Word)}
    (h : ∀ p ∈ ws, a ≠ b + BitVec.ofNat 64 p.1) : storeAll m b ws a = m a := by
  induction ws generalizing m with
  | nil => rfl
  | cons p ws ih =>
    unfold storeAll
    rw [ih fun p' hp' => h p' (List.mem_cons_of_mem _ hp')]
    exact Function.update_of_ne (h p List.mem_cons_self) ..

theorem storeAll_slot {ws : List (ℕ × Word)} {w : Word} (hnodup : (ws.map Prod.fst).Nodup)
    (hbound : ∀ p ∈ ws, p.1 < 2 ^ 64) (hmem : (off, w) ∈ ws) :
    storeAll m b ws (b + BitVec.ofNat 64 off) = w := by
  induction ws generalizing m with
  | nil => cases hmem
  | cons p ws ih =>
    rw [List.map_cons, List.nodup_cons] at hnodup
    unfold storeAll
    rcases List.mem_cons.mp hmem with rfl | hrest
    · rw [storeAll_other, Function.update_self]
      intro p' hp' heq
      have hoff := slot_injective (hbound _ List.mem_cons_self)
        (hbound p' (List.mem_cons_of_mem _ hp')) heq
      exact hnodup.1 (hoff ▸ List.mem_map_of_mem hp')
    · exact ih hnodup.2 (fun p' hp' => hbound p' (List.mem_cons_of_mem _ hp')) hrest

theorem loadAll_append {l' : List (Operand × ℕ)} :
    loadAll b (l ++ l') s = loadAll b l' (loadAll b l s) := by
  induction l generalizing s with
  | nil => rfl
  | cons p l ih => exact ih

/-- Loads change registers only. -/
structure SameRest (s s' : State ω) : Prop where
  mem : s'.mem = s.mem
  sps : s'.sps = s.sps
  pstate : s'.pstate = s.pstate
  sys : s'.sys = s.sys
  world : s'.world = s.world

theorem SameRest.sp {s' : State ω} (h : SameRest s s') : s'.sp = s.sp := by
  unfold State.sp State.spIndex
  rw [h.sps, h.pstate]

theorem loadAll_rest : SameRest s (loadAll b l s) := by
  induction l generalizing s with
  | nil => exact ⟨rfl, rfl, rfl, rfl, rfl⟩
  | cons p l ih =>
    obtain ⟨hmem, hsps, hpstate, hsys, hworld⟩ :=
      ih (s := s.write p.1 (s.mem (b + BitVec.ofNat 64 p.2)))
    refine ⟨hmem.trans ?_, hsps.trans ?_, hpstate.trans ?_, hsys.trans ?_, hworld.trans ?_⟩ <;>
      simp

theorem loadAll_other (h : ∀ p ∈ l, p.1 ≠ o) : (loadAll b l s).read o = s.read o := by
  induction l generalizing s with
  | nil => rfl
  | cons p l ih =>
    unfold loadAll
    rw [ih fun p' hp' => h p' (List.mem_cons_of_mem _ hp'), write_read,
      if_neg fun heq => h p List.mem_cons_self heq.symm]

theorem loadAll_slot (hnodup : (l.map Prod.fst).Nodup) (hmem : (o, off) ∈ l) :
    (loadAll b l s).read o = s.mem (b + BitVec.ofNat 64 off) := by
  induction l generalizing s with
  | nil => cases hmem
  | cons p l ih =>
    rw [List.map_cons, List.nodup_cons] at hnodup
    unfold loadAll
    rcases List.mem_cons.mp hmem with rfl | hrest
    · rw [loadAll_other, write_read, if_pos rfl]
      intro p' hp' heq
      have hagain := List.mem_map_of_mem (f := Prod.fst) hp'
      rw [heq] at hagain
      exact hnodup.1 hagain
    · rw [ih hnodup.2 hrest, write_mem]

theorem loadAll_v (h : ∀ p ∈ l, ∃ r, p.1 = .x r) : (loadAll b l s).v = s.v := by
  induction l generalizing s with
  | nil => rfl
  | cons p l ih =>
    obtain ⟨r, hr⟩ := h p List.mem_cons_self
    unfold loadAll
    rw [ih fun p' hp' => h p' (List.mem_cons_of_mem _ hp'), hr]
    rfl

/-- The slots in `l` of the general registers, each loaded at most once. -/
def HasSlots (l : List (Operand × ℕ)) (slot : Reg → Option ℕ) : Prop :=
  (l.map Prod.fst).Nodup ∧ ∀ r, (l.find? fun p => p.1 = .x r).map Prod.snd = slot r

theorem loadAll_x {slot : Reg → Option ℕ} (h : HasSlots l slot) (r : Reg) :
    (loadAll b l s).x r = match slot r with
      | some off => s.mem (b + BitVec.ofNat 64 off)
      | none => s.x r := by
  rw [← h.2 r]
  cases hfind : l.find? fun p => p.1 = .x r with
  | none =>
    refine loadAll_other (o := .x r) fun p hp => ?_
    simpa using List.find?_eq_none.mp hfind p hp
  | some p =>
    obtain ⟨o, off⟩ := p
    obtain rfl : o = .x r := by simpa using List.find?_some hfind
    exact loadAll_slot (o := .x r) h.1 (List.mem_of_find?_eq_some hfind)

theorem address_eq (hsp : n = .sp → s.sp.toNat % 16 = 0) (hbase : (s.base n).toNat % 8 = 0)
    (hoff : off % 8 = 0) : s.address n off = some (s.base n + BitVec.ofNat 64 off) := by
  unfold State.address
  dsimp only
  rw [if_pos]
  refine ⟨hsp, ?_⟩
  rw [BitVec.toNat_add, BitVec.toNat_ofNat]
  omega

theorem exec_stp {t₁ t₂ : Operand} : (Instr.stp t₁ t₂ n off).exec s = (s.address n off).map
    fun a => { s with
      mem := Function.update (Function.update s.mem a (s.read t₁)) (a + 8) (s.read t₂) } := rfl

theorem exec_ldp {t₁ t₂ : Operand} : (Instr.ldp t₁ t₂ n off).exec s =
    (s.address n off).map fun a => (s.write t₁ (s.mem a)).write t₂ (s.mem (a + 8)) := rfl

/-- A save runs through and changes the memory only. -/
theorem exec_stps (hsp : n = .sp → s.sp.toNat % 16 = 0) (hbase : (s.base n).toNat % 8 = 0)
    (hoff : ∀ p ∈ pairs, p.2.2 % 8 = 0) :
    execAll (stps n pairs) s =
      some (s.setMem (storeAll s.mem (s.base n) (saved s (slots pairs)))) := by
  suffices hgen : ∀ m, execAll (stps n pairs) { s with mem := m } =
      some { s with mem := storeAll m (s.base n) (saved s (slots pairs)) } from hgen s.mem
  induction pairs with
  | nil => intro m; rfl
  | cons p pairs ih =>
    intro m
    have haddr : ({ s with mem := m } : State ω).address n p.2.2 =
        some (s.base n + BitVec.ofNat 64 p.2.2) := address_eq hsp hbase (hoff p List.mem_cons_self)
    have hnext : s.base n + BitVec.ofNat 64 p.2.2 + 8 =
        s.base n + BitVec.ofNat 64 (p.2.2 + 8) := by
      rw [BitVec.ofNat_add, BitVec.add_assoc]
      rfl
    have hread : ∀ o, ({ s with mem := m } : State ω).read o = s.read o := by
      intro o
      cases o <;> rfl
    have hexec : (Instr.stp p.1 p.2.1 n p.2.2).exec { s with mem := m } =
        some { s with mem := storeAll m (s.base n) (saved s (slots [p])) } := by
      rw [exec_stp, haddr, Option.map_some, hnext, hread, hread]
      rfl
    have hrest := ih (fun p' hp' => hoff p' (List.mem_cons_of_mem _ hp'))
      (storeAll m (s.base n) (saved s (slots [p])))
    rw [stps, List.map_cons, execAll_cons hexec]
    refine hrest.trans ?_
    have hsplit : saved s (slots (p :: pairs)) =
        saved s (slots [p]) ++ saved s (slots pairs) := rfl
    rw [hsplit, storeAll_append]

/-- A restore runs through and changes the registers only. -/
theorem exec_ldps (hsp : n = .sp → s.sp.toNat % 16 = 0) (hbase : (s.base n).toNat % 8 = 0)
    (hoff : ∀ p ∈ pairs, p.2.2 % 8 = 0)
    (hkeep : ∀ r, n = .x r → ∀ p ∈ slots pairs, p.1 ≠ .x r) :
    execAll (ldps n pairs) s = some (loadAll (s.base n) (slots pairs) s) := by
  induction pairs generalizing s with
  | nil => rfl
  | cons p pairs ih =>
    have hsplit : slots (p :: pairs) = slots [p] ++ slots pairs := rfl
    have hnext : s.base n + BitVec.ofNat 64 p.2.2 + 8 =
        s.base n + BitVec.ofNat 64 (p.2.2 + 8) := by
      rw [BitVec.ofNat_add, BitVec.add_assoc]
      rfl
    have hexec : (Instr.ldp p.1 p.2.1 n p.2.2).exec s =
        some (loadAll (s.base n) (slots [p]) s) := by
      rw [exec_ldp, address_eq hsp hbase (hoff p List.mem_cons_self), Option.map_some, hnext]
      simp [slots, loadAll]
    have hrest := loadAll_rest (b := s.base n) (l := slots [p]) (s := s)
    have hsame : (loadAll (s.base n) (slots [p]) s).base n = s.base n := by
      cases n with
      | sp => exact hrest.sp
      | x r =>
        have hread := loadAll_other (b := s.x r) (s := s) (o := .x r)
          fun p' hp' => hkeep r rfl p' (by rw [hsplit]; exact List.mem_append_left _ hp')
        exact hread
    rw [ldps, List.map_cons, execAll_cons hexec, hsplit, loadAll_append]
    refine (ih ?_ ?_ ?_ ?_).trans (by rw [hsame])
    · intro hn
      rw [hrest.sp]
      exact hsp hn
    · rw [hsame]
      exact hbase
    · exact fun p' hp' => hoff p' (List.mem_cons_of_mem _ hp')
    · exact fun r hn p' hp' => hkeep r hn p' (by rw [hsplit]; exact List.mem_append_right _ hp')

end Blocks

end A64
