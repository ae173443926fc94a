import Tyrne.Mm.Gated
import Tyrne.Mm.Runs

/-!
# The contract of the MMU

What `Mmu::map` and `Mmu::unmap` promise, for any MMU. An address space owns the frames of its
tables: its root, and what `map` has pulled for it, which no failure gives back. A `map` that fails
has mapped nothing, and an `unmap` undoes a `map`.
-/

namespace Tyrne

section Pulls

variable [Build] {N R : ℕ}

/-- The frames that the MMU pulled from the manager, one after the other. -/
inductive Pulls : Supply (Pmm N R) → List ℕ → Supply (Pmm N R) → Prop
  | keep {s s' : Supply (Pmm N R)} : s'.frames = s.frames → Pulls s [] s'
  | pull {s s₁ s₂ s' : Supply (Pmm N R)} {f : PhysFrame} {fs : List ℕ} : s₁.frames = s.frames →
      (Pmm.allocFrame : Prog _ MmuError _).run s₁ = .ok (some f) s₂ → Pulls s₂ fs s' →
      Pulls s (f.asUsize :: fs) s'

variable {extent : PhysFrameRange} {reserved : List PhysFrameRange} {s s' : Supply (Pmm N R)}
  {A : SetAllocator ℕ} {fs : List ℕ}

/-- What was pulled was free, and is outstanding. -/
theorem Pulls.models (h : Pulls s fs s') (hmodels : Models extent reserved s.frames A)
    (haccepts : Accepts N R extent reserved) (hstop : extent.stop.val < 2 ^ 64) :
    ∃ A', Models extent reserved s'.frames A' ∧ A.Beyond A' fs := by
  induction h generalizing A with
  | keep hsame =>
    rw [← hsame] at hmodels
    exact ⟨A, hmodels, .refl A⟩
  | @pull s s₁ s₂ s' f fs hsame halloc _ ih =>
    rw [← hsame] at hmodels
    rcases hmodels.allocFrame_cases haccepts hstop with ⟨_, hrun⟩ | ⟨_, hpanic⟩ |
      ⟨f', s₂', husable, hleast, hrun, hmodels₂, _⟩
    · rw [hrun] at halloc
      cases halloc
    · obtain ⟨cause, hpanic⟩ := hpanic MmuError
      rw [hpanic] at halloc
      cases halloc
    · rw [hrun] at halloc
      cases halloc
      obtain ⟨A', hmodels', hbeyond⟩ := ih hmodels₂
      have hnot : f.addr.val ∉ A.outstanding := (SetAllocator.mem_available.mp hleast.1).2
      exact ⟨A', hmodels', (SetAllocator.Beyond.of_take hnot).trans hbeyond⟩

end Pulls

/-- An MMU that meets its contract, over the managers of an extent. -/
structure MmuContract [Build] (AS : Type) [Mapper AS] (N R : ℕ) (extent : PhysFrameRange)
    (reserved : List PhysFrameRange) where
  /-- The tables of the address space are in order. -/
  Sound : AS → Memory → Prop
  /-- The frames of its tables. -/
  tables : AS → Memory → Set ℕ
  /-- The frame that a page is mapped to, by the number of the page. -/
  mapping : AS → Memory → ℕ → Option PhysFrame
  /-- A zeroed root is an address space without mappings. -/
  create : ∀ {root : PhysFrame} {m : Memory}, root.asUsize ∈ usableFrames extent reserved →
    (∀ a, InFrame root.asUsize a → m a = 0) →
    Sound (Mapper.createAddressSpace root) m ∧
      tables (Mapper.createAddressSpace root) m = {root.asUsize} ∧
      mapping (Mapper.createAddressSpace root) m = fun _ => none
  /-- It depends on the memory of its tables only. -/
  keep : ∀ {as_ m m'}, Sound as_ m →
    (∀ a ∈ tables as_ m, ∀ b, InFrame a b → m' b = m b) →
    Sound as_ m' ∧ tables as_ m' = tables as_ m ∧ mapping as_ m' = mapping as_ m
  /-- Without a mapping no address of the page translates. -/
  untranslated : ∀ {as_ m} {va : VirtAddr}, Sound as_ m → va.val < 2 ^ 48 →
    mapping as_ m (va.val / pageSize) = none → ∀ x m', (Mmu.translate as_ va).run m ≠ .ok x m'
  /-- A `map` that succeeds maps its page, and the tables that it needed are the space's. -/
  map_ok : ∀ {as_ as' s s' A va pa flags token}, Sound as_ s.memory →
    Models extent reserved s.frames A → (∀ a ∈ tables as_ s.memory, a ∈ A.outstanding) →
    va.val % pageSize = 0 → va.val < 2 ^ 48 → pa.asUsize ∈ A.outstanding →
    pa.asUsize ∉ tables as_ s.memory →
    (Mapper.map va pa flags Pmm.allocFrame : Prog (AS × Supply (Pmm N R)) _ _).run (as_, s) =
      .ok token (as', s') →
    Sound as' s'.memory ∧
      mapping as' s'.memory = Function.update (mapping as_ s.memory) (va.val / pageSize) (some pa) ∧
      ∃ fs, Pulls s fs s' ∧ tables as' s'.memory = tables as_ s.memory ∪ {a | a ∈ fs}
  /-- A `map` that fails maps nothing and does not consume its frame. The tables that it has pulled
  stay with the space. -/
  map_err : ∀ {as_ as' s s' A va pa flags e}, Sound as_ s.memory →
    Models extent reserved s.frames A → (∀ a ∈ tables as_ s.memory, a ∈ A.outstanding) →
    va.val % pageSize = 0 → va.val < 2 ^ 48 → pa.asUsize ∈ A.outstanding →
    pa.asUsize ∉ tables as_ s.memory →
    (Mapper.map va pa flags Pmm.allocFrame : Prog (AS × Supply (Pmm N R)) _ _).run (as_, s) =
      .err e (as', s') →
    Sound as' s'.memory ∧ mapping as' s'.memory = mapping as_ s.memory ∧
      ∃ fs, Pulls s fs s' ∧ tables as' s'.memory = tables as_ s.memory ∪ {a | a ∈ fs}
  /-- An `unmap` undoes a `map`. -/
  unmap : ∀ {as_ s A va pa}, Sound as_ s.memory → Models extent reserved s.frames A →
    (∀ a ∈ tables as_ s.memory, a ∈ A.outstanding) → va.val % pageSize = 0 → va.val < 2 ^ 48 →
    mapping as_ s.memory (va.val / pageSize) = some pa →
    ∃ token as' s', (Mapper.unmap va : Prog (AS × Supply (Pmm N R)) _ _).run (as_, s) =
        .ok (token, pa) (as', s') ∧ s'.frames = s.frames ∧ Sound as' s'.memory ∧
      mapping as' s'.memory = Function.update (mapping as_ s.memory) (va.val / pageSize) none ∧
      tables as' s'.memory = tables as_ s.memory
  /-- TLB maintenance touches neither memory nor frames. -/
  flush : ∀ (token : MapperFlush) (s : Supply (Pmm N R)),
    (token.flush AS : Prog _ AddressSpaceError Unit).run s = .ok () s

end Tyrne
