import Mathlib.Data.Finset.Card
import Tyrne.Library.Run

/-!
# Stores that issue their own keys

A finite map of bounded capacity whose keys are chosen by the map: an insertion issues a key
that is not in use, or nothing when the map is full. A value is read, modified and erased
under its key. From its insertion to its erasure a key leads to the inserted value, with the
modifications made under that key and no other.
-/

/-- A finite map with its keys. -/
structure KeyStore (K V : Type*) where
  lookup : K → Option V
  keys : Finset K
  mem_keys : ∀ k, k ∈ keys ↔ lookup k ≠ none

namespace KeyStore

inductive Op (K V : Type*)
  | insert (v : V)
  | erase (k : K)
  | read (k : K)
  | modify (k : K) (f : V → V)

inductive Reply (K V : Type*)
  | issued (k : Option K)
  | found (v : Option V)

variable {K V : Type*} [DecidableEq K] {m m' : KeyStore K V} {k k' : K} {v : V}
  {e : Op K V × Reply K V} {es : List (Op K V × Reply K V)} {capacity : ℕ}

omit [DecidableEq K] in
theorem ext_lookup (h : ∀ k, m.lookup k = m'.lookup k) : m = m' := by
  obtain ⟨lookup, keys, hkeys⟩ := m
  obtain ⟨lookup', keys', hkeys'⟩ := m'
  obtain rfl : lookup = lookup' := funext h
  obtain rfl : keys = keys' := by
    ext k
    rw [hkeys, hkeys']
  rfl

def empty : KeyStore K V where
  lookup _ := none
  keys := ∅
  mem_keys k := by simp

/-- `v` stored under `k`. -/
def put (m : KeyStore K V) (k : K) (v : V) : KeyStore K V where
  lookup := Function.update m.lookup k (some v)
  keys := insert k m.keys
  mem_keys j := by
    by_cases hj : j = k
    · simp [hj]
    · simp [hj, m.mem_keys]

/-- Nothing stored under `k`. -/
def remove (m : KeyStore K V) (k : K) : KeyStore K V where
  lookup := Function.update m.lookup k none
  keys := m.keys.erase k
  mem_keys j := by
    by_cases hj : j = k
    · simp [hj]
    · simp [hj, m.mem_keys]

@[simp] theorem put_self : (m.put k v).lookup k = some v := Function.update_self k _ _

@[simp] theorem put_other (hne : k' ≠ k) : (m.put k v).lookup k' = m.lookup k' :=
  Function.update_of_ne hne _ _

@[simp] theorem remove_self : (m.remove k).lookup k = none := Function.update_self k _ _

@[simp] theorem remove_other (hne : k' ≠ k) : (m.remove k).lookup k' = m.lookup k' :=
  Function.update_of_ne hne _ _

/-- Removing what is not there. -/
theorem remove_absent (habsent : m.lookup k = none) : m.remove k = m := by
  apply ext_lookup
  intro j
  by_cases hj : j = k
  · rw [hj, remove_self, habsent]
  · rw [remove_other hj]

/-- An operation, its reply and the store after it. -/
inductive Step (capacity : ℕ) (m : KeyStore K V) : Op K V × Reply K V → KeyStore K V → Prop
  | insert {k : K} {v : V} : m.lookup k = none → m.keys.card < capacity →
      Step capacity m (.insert v, .issued (some k)) (m.put k v)
  | full {v : V} : m.keys.card = capacity → Step capacity m (.insert v, .issued none) m
  | erase {k : K} : Step capacity m (.erase k, .found (m.lookup k)) (m.remove k)
  | read {k : K} : Step capacity m (.read k, .found (m.lookup k)) m
  | modify {k : K} {f : V → V} {v : V} : m.lookup k = some v →
      Step capacity m (.modify k f, .found (some v)) (m.put k (f v))
  | missing {k : K} {f : V → V} : m.lookup k = none →
      Step capacity m (.modify k f, .found none) m

/-- The key that an operation touches. -/
def touched : Op K V × Reply K V → Option K
  | (.insert _, .issued k) => k
  | (.erase k, _) => some k
  | (.modify k _, _) => some k
  | _ => none

/-- No operation changes what is under another key. -/
theorem Step.frame (hstep : Step capacity m e m') (hk : touched e ≠ some k) :
    m'.lookup k = m.lookup k := by
  cases hstep with
  | insert => exact put_other fun heq => hk (heq ▸ rfl)
  | full => rfl
  | erase => exact remove_other fun heq => hk (heq ▸ rfl)
  | read => rfl
  | modify => exact put_other fun heq => hk (heq ▸ rfl)
  | missing => rfl

/-- The value under `k` after an operation that has not erased it. -/
def rewrite (k : K) (v : V) (e : Op K V × Reply K V) : V :=
  match e.1 with
  | .modify k' f => if k' = k then f v else v
  | _ => v

/-- The value that was inserted as `v` under `k`, with the modifications since. -/
def rewritten (k : K) (v : V) (es : List (Op K V × Reply K V)) : V := es.foldl (rewrite k) v

theorem Step.keeps (hstep : Step capacity m e m') (hlookup : m.lookup k = some v)
    (hkept : e.1 ≠ .erase k) : m'.lookup k = some (rewrite k v e) := by
  cases hstep with
  | @insert j w hfree =>
    have hne : k ≠ j := by
      rintro rfl
      rw [hfree] at hlookup
      cases hlookup
    rw [put_other hne, hlookup]
    rfl
  | full => exact hlookup
  | @erase j =>
    have hne : k ≠ j := fun heq => hkept (heq ▸ rfl)
    rw [remove_other hne, hlookup]
    rfl
  | read => exact hlookup
  | @modify j f w hw =>
    unfold rewrite
    by_cases hj : j = k
    · subst hj
      obtain rfl := Option.some.inj (hw.symm.trans hlookup)
      simp
    · have hne : k ≠ j := fun heq => hj heq.symm
      simp [hj, hne, hlookup]
  | @missing j f hw =>
    unfold rewrite
    have hj : j ≠ k := by
      rintro rfl
      rw [hw] at hlookup
      cases hlookup
    simp [hj, hlookup]

/-- A key leads to its own value as long as it is not erased. -/
theorem run_keeps (hrun : Run (Step capacity) m es m') (hlookup : m.lookup k = some v)
    (hkept : ∀ e ∈ es, e.1 ≠ .erase k) : m'.lookup k = some (rewritten k v es) := by
  induction hrun generalizing v with
  | nil => exact hlookup
  | cons hstep _ ih =>
    have hone := hstep.keeps hlookup (hkept _ List.mem_cons_self)
    exact ih hone fun e he => hkept e (List.mem_cons_of_mem _ he)

/-- From its insertion on. -/
theorem run_inserted {past mid : List (Op K V × Reply K V)}
    (hrun : Run (Step capacity) m (past ++ (.insert v, .issued (some k)) :: mid) m')
    (hkept : ∀ e ∈ mid, e.1 ≠ .erase k) : m'.lookup k = some (rewritten k v mid) := by
  obtain ⟨m₁, _, hrest⟩ := hrun.split
  cases hrest with
  | cons hstep hmid =>
    cases hstep with
    | insert => exact run_keeps hmid put_self hkept

end KeyStore
