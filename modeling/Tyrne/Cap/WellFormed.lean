import Tyrne.Library.Forest
import Tyrne.Cap.Table

/-!
# Well-formed capability tables

The abstract content of a table is the forest `nodeAt`: what each slot holds and under
which parent, without the intrusive links. `WellFormed` says that the links represent
it: the free list is the list of vacant slots, and the sibling chain of a slot is the
list of its children.

Every operation that changes a table does one of three things to it: it installs a
leaf at the popped slot, it unlinks and frees a leaf, or it frees all strict
descendants of a slot. Each of the three keeps the invariant.
-/

namespace Tyrne

/-- What a slot holds and where it stands in the derivation forest. -/
structure Node where
  capability : Capability
  parent : Option Index
  depth : ℕ
  deriving DecidableEq, Repr

def SlotEntry.node (e : SlotEntry) : Node := ⟨e.capability, e.parent, e.depth⟩

namespace CapabilityTable

variable {t t' : CapabilityTable} {i j n p : Index} {e : SlotEntry}

/-! ## Views of a table -/

/-- The part `g` of the entry of slot `i`. -/
def read {α : Type} (t : CapabilityTable) (g : SlotEntry → Option α) (i : Index) : Option α :=
  (t.slots i).entry.bind g

/-- The derivation forest a table represents. -/
abbrev nodeAt (t : CapabilityTable) : Index → Option Node := t.read fun e => some e.node

abbrev firstChildAt (t : CapabilityTable) : Index → Option Index := t.read (·.firstChild)

abbrev siblingAt (t : CapabilityTable) : Index → Option Index := t.read (·.nextSibling)

abbrev parentAt (t : CapabilityTable) : Index → Option Index := t.read (·.parent)

def nextFreeAt (t : CapabilityTable) (i : Index) : Option Index := (t.slots i).nextFree

def Occupied (t : CapabilityTable) (i : Index) : Prop := (t.slots i).entry.isSome

def Vacant (t : CapabilityTable) (i : Index) : Prop :=
  i.toNat < capTableCapacity ∧ (t.slots i).entry = none

instance (t : CapabilityTable) (i : Index) : Decidable (t.Occupied i) :=
  inferInstanceAs (Decidable (_ = _))

theorem read_of_entry {α : Type} {g : SlotEntry → Option α} (h : (t.slots i).entry = some e) :
    t.read g i = g e := by
  rw [read, h, Option.bind_some]

theorem read_of_none {α : Type} {g : SlotEntry → Option α} (h : (t.slots i).entry = none) :
    t.read g i = none := by
  rw [read, h, Option.bind_none]

theorem exists_entry_of_read {α : Type} {g : SlotEntry → Option α} {a : α}
    (h : t.read g i = some a) : ∃ e, (t.slots i).entry = some e ∧ g e = some a := by
  simpa [read, Option.bind_eq_some_iff] using h

theorem Occupied.of_read {α : Type} {g : SlotEntry → Option α} {a : α}
    (h : t.read g i = some a) : t.Occupied i := by
  obtain ⟨e, he, -⟩ := exists_entry_of_read h
  simp [Occupied, he]

theorem occupied_iff : t.Occupied i ↔ ∃ nd, t.nodeAt i = some nd := by
  unfold Occupied nodeAt read
  cases (t.slots i).entry <;> simp

theorem entry_eq_none_iff : (t.slots i).entry = none ↔ t.nodeAt i = none := by
  unfold nodeAt read
  cases (t.slots i).entry <;> simp

theorem Occupied.exists_entry (h : t.Occupied i) : ∃ e, (t.slots i).entry = some e :=
  Option.isSome_iff_exists.mp h

theorem parentAt_eq_some_iff :
    t.parentAt i = some p ↔ ∃ nd, t.nodeAt i = some nd ∧ nd.parent = some p := by
  cases h : (t.slots i).entry with
  | none => simp [read, h]
  | some e => simp [read, h, SlotEntry.node]

/-- `d` is a strict descendant of `p` in the derivation forest. -/
abbrev StrictDescendant (t : CapabilityTable) (p d : Index) : Prop :=
  Forest.Below t.parentAt p d

theorem occupied_of_below {d : Index} (hd : t.StrictDescendant p d) : t.Occupied d := by
  obtain ⟨q, hq⟩ := Option.ne_none_iff_exists'.mp hd.parent_ne_none
  exact .of_read hq

theorem ne_of_vacant_of_occupied (hi : t.Vacant i) (hj : t.Occupied j) : i ≠ j := by
  rintro rfl
  simp [Occupied, hi.2] at hj

/-! ## The invariant -/

structure WellFormed (t : CapabilityTable) : Prop where
  /-- Nothing is stored outside the array. -/
  bounded : ∀ i, t.Occupied i → i.toNat < capTableCapacity
  /-- The free list is acyclic and visits exactly the vacant slots. -/
  free : Chain.Lists t.nextFreeAt t.freeHead t.Vacant
  /-- A parent is occupied, one level above, and holds all rights of its child. -/
  parent : ∀ i nd p, t.nodeAt i = some nd → nd.parent = some p →
    ∃ pn, t.nodeAt p = some pn ∧ nd.depth = pn.depth + 1 ∧
      pn.capability.rights.contains nd.capability.rights
  depth : ∀ i nd, t.nodeAt i = some nd → nd.depth ≤ maxDerivationDepth
  /-- A root has depth zero and links to no sibling. -/
  root : ∀ i nd, t.nodeAt i = some nd → nd.parent = none →
    nd.depth = 0 ∧ t.siblingAt i = none
  /-- The sibling chain below a slot is acyclic and lists exactly its children. -/
  children : ∀ p, Chain.Lists t.siblingAt (t.firstChildAt p) fun i => t.parentAt i = some p

namespace WellFormed

variable (h : t.WellFormed)
include h

theorem parent_occupied (hp : t.parentAt i = some p) : t.Occupied p := by
  obtain ⟨nd, hnd, hparent⟩ := parentAt_eq_some_iff.mp hp
  obtain ⟨pn, hpn, -⟩ := h.parent i nd p hnd hparent
  exact .of_read hpn

theorem depth_lt (hp : t.parentAt i = some p) :
    ((t.nodeAt p).elim 0 Node.depth) < ((t.nodeAt i).elim 0 Node.depth) := by
  obtain ⟨nd, hnd, hparent⟩ := parentAt_eq_some_iff.mp hp
  obtain ⟨pn, hpn, hdepth, -⟩ := h.parent i nd p hnd hparent
  simp [hnd, hpn, hdepth]

/-- Depth grows along every path, so no slot is below itself. -/
theorem not_below_self (i : Index) : ¬ t.StrictDescendant i i := fun hi =>
  Nat.lt_irrefl _ (hi.rank_lt fun _ _ hp => h.depth_lt hp)

theorem freeHead_vacant (hn : t.freeHead = some n) : t.Vacant n :=
  Chain.Lists.head_mem (hn ▸ h.free)

end WellFormed

/-! ## The effects -/

def withSlot (t : CapabilityTable) (i : Index) (slot : Slot) : CapabilityTable :=
  { t with slots := Function.update t.slots i slot }

/-- The table after `popFree` took the head `n`. -/
def popped (t : CapabilityTable) (n : Index) : CapabilityTable :=
  { t.withSlot n { t.slots n with nextFree := none } with freeHead := (t.slots n).nextFree }

def withEntry (t : CapabilityTable) (i : Index) (entry : Option SlotEntry) : CapabilityTable :=
  t.withSlot i { t.slots i with entry }

def mapEntry (t : CapabilityTable) (i : Index) (f : SlotEntry → SlotEntry) : CapabilityTable :=
  t.withEntry i ((t.slots i).entry.map f)

/-- The table after `freeSlot i`. -/
def freed (t : CapabilityTable) (i : Index) : CapabilityTable :=
  { t.withSlot i
      { entry := none, generation := (t.slots i).generation + 1, nextFree := t.freeHead } with
    freeHead := some i }

/-- `n` spliced in as the first child of `parent`. -/
def linked (t : CapabilityTable) (parent : Option Index) (n : Index) : CapabilityTable :=
  match parent with
  | none => t
  | some p => t.mapEntry p fun e => { e with firstChild := some n }

/-- The popped slot `n` filled with `e`, under `e.parent`. -/
def installed (t : CapabilityTable) (n : Index) (e : SlotEntry) : CapabilityTable :=
  ((t.popped n).linked e.parent n).withEntry n (some e)

/-- The slot `i`, whose entry is `e`, taken out of its parent's child list. -/
inductive Unlinked (t : CapabilityTable) (i : Index) (e : SlotEntry) : CapabilityTable → Prop
  | root : e.parent = none → Unlinked t i e t
  | head {p : Index} : e.parent = some p → t.firstChildAt p = some i →
      Unlinked t i e (t.mapEntry p fun pe => { pe with firstChild := e.nextSibling })
  | middle {p c : Index} : e.parent = some p → t.parentAt c = some p →
      t.siblingAt c = some i →
      Unlinked t i e (t.mapEntry c fun ce => { ce with nextSibling := e.nextSibling })

/-- Every slot of `ds` freed, in order. -/
def freedAll (t : CapabilityTable) (ds : List Index) : CapabilityTable := ds.foldl freed t

/-- All of `ds` freed and the child list of `src` emptied. -/
def pruned (t : CapabilityTable) (src : Index) (ds : List Index) : CapabilityTable :=
  (t.freedAll ds).mapEntry src fun e => { e with firstChild := none }

/-! ### How the views change -/

@[simp] theorem withSlot_slots (t : CapabilityTable) (i : Index) (slot : Slot) (j : Index) :
    (t.withSlot i slot).slots j = if j = i then slot else t.slots j :=
  Function.update_apply ..

@[simp] theorem withSlot_freeHead (t : CapabilityTable) (i : Index) (slot : Slot) :
    (t.withSlot i slot).freeHead = t.freeHead := rfl

@[simp] theorem popped_slots (t : CapabilityTable) (n j : Index) :
    (t.popped n).slots j = if j = n then { t.slots n with nextFree := none } else t.slots j :=
  withSlot_slots ..

@[simp] theorem popped_freeHead (t : CapabilityTable) (n : Index) :
    (t.popped n).freeHead = t.nextFreeAt n := rfl

@[simp] theorem withEntry_slots (t : CapabilityTable) (i : Index) (entry : Option SlotEntry)
    (j : Index) : (t.withEntry i entry).slots j =
      if j = i then { t.slots i with entry } else t.slots j :=
  withSlot_slots ..

@[simp] theorem withEntry_freeHead (t : CapabilityTable) (i : Index)
    (entry : Option SlotEntry) : (t.withEntry i entry).freeHead = t.freeHead := rfl

@[simp] theorem mapEntry_slots (t : CapabilityTable) (i : Index) (f : SlotEntry → SlotEntry)
    (j : Index) : (t.mapEntry i f).slots j =
      if j = i then { t.slots i with entry := (t.slots i).entry.map f } else t.slots j :=
  withSlot_slots ..

@[simp] theorem mapEntry_freeHead (t : CapabilityTable) (i : Index)
    (f : SlotEntry → SlotEntry) : (t.mapEntry i f).freeHead = t.freeHead := rfl

@[simp] theorem freed_slots (t : CapabilityTable) (i j : Index) :
    (t.freed i).slots j = if j = i then
      { entry := none, generation := (t.slots i).generation + 1, nextFree := t.freeHead }
      else t.slots j :=
  withSlot_slots ..

@[simp] theorem freed_freeHead (t : CapabilityTable) (i : Index) :
    (t.freed i).freeHead = some i := rfl

section Read

variable {α : Type} {g : SlotEntry → Option α}

@[simp] theorem popped_read : (t.popped n).read g j = t.read g j := by
  unfold read
  grind [popped_slots]

@[simp] theorem withEntry_read {entry : Option SlotEntry} :
    (t.withEntry i entry).read g j = if j = i then entry.bind g else t.read g j := by
  unfold read
  grind [withEntry_slots]

theorem mapEntry_read {f : SlotEntry → SlotEntry} :
    (t.mapEntry i f).read g j = if j = i then (t.read fun e => g (f e)) i else t.read g j := by
  unfold read
  rw [mapEntry_slots]
  split
  · rw [Option.bind_map]
    rfl
  · rfl

/-- A part of the entries that `f` does not write. -/
theorem mapEntry_read_same {f : SlotEntry → SlotEntry} (hf : ∀ e, g (f e) = g e) :
    (t.mapEntry i f).read g j = t.read g j := by
  rw [mapEntry_read]
  split
  · subst j
    simp [hf]
  · rfl

@[simp] theorem freed_read :
    (t.freed i).read g j = if j = i then none else t.read g j := by
  unfold read
  rw [freed_slots]
  split <;> rfl

end Read

/-! ## Installing a leaf -/

section Install

variable {α : Type} {g : SlotEntry → Option α}

theorem installed_freeHead : (t.installed n e).freeHead = t.nextFreeAt n := by
  unfold installed linked
  cases e.parent <;> simp

theorem installed_generation :
    ((t.installed n e).slots j).generation = (t.slots j).generation := by
  unfold installed linked
  cases e.parent <;> grind [withEntry_slots, mapEntry_slots, popped_slots]

theorem installed_nextFreeAt :
    (t.installed n e).nextFreeAt j = if j = n then none else t.nextFreeAt j := by
  unfold installed linked nextFreeAt
  cases e.parent <;> grind [withEntry_slots, mapEntry_slots, popped_slots]

/-- Splicing in a leaf changes nothing of the other entries but the first child. -/
theorem installed_read_same
    (hg : ∀ e c, g { e with firstChild := c } = g e) :
    (t.installed n e).read g j = if j = n then g e else t.read g j := by
  unfold installed linked
  cases e.parent with
  | none => simp
  | some p => simp [mapEntry_read_same, hg]

theorem installed_firstChildAt (hp : ∀ p, e.parent = some p → t.Occupied p) :
    (t.installed n e).firstChildAt j =
      if j = n then e.firstChild else if e.parent = some j then some n else t.firstChildAt j := by
  unfold installed linked
  cases hparent : e.parent with
  | none => simp
  | some p =>
    obtain ⟨pe, hpe⟩ := (hp p hparent).exists_entry
    simp only [withEntry_read, mapEntry_read, popped_read, read_of_entry hpe]
    grind

theorem installed_nodeAt :
    (t.installed n e).nodeAt j = if j = n then some e.node else t.nodeAt j :=
  installed_read_same fun _ _ => rfl

theorem installed_siblingAt :
    (t.installed n e).siblingAt j = if j = n then e.nextSibling else t.siblingAt j :=
  installed_read_same fun _ _ => rfl

theorem installed_parentAt :
    (t.installed n e).parentAt j = if j = n then e.parent else t.parentAt j :=
  installed_read_same fun _ _ => rfl

theorem installed_occupied : (t.installed n e).Occupied j ↔ j = n ∨ t.Occupied j := by
  rw [occupied_iff, occupied_iff, installed_nodeAt]
  by_cases hjn : j = n <;> simp [hjn]

/-- The entry of a leaf that may be installed: a root, or a child that takes the former
first child of its parent as sibling. -/
structure Leaf (t : CapabilityTable) (e : SlotEntry) : Prop where
  leaf : e.firstChild = none
  depth : e.depth ≤ maxDerivationDepth
  root : e.parent = none → e.depth = 0 ∧ e.nextSibling = none
  child : ∀ p, e.parent = some p → e.nextSibling = t.firstChildAt p ∧
    ∃ pn, t.nodeAt p = some pn ∧ e.depth = pn.depth + 1 ∧
      pn.capability.rights.contains e.capability.rights

theorem WellFormed.installed (h : t.WellFormed) (hn : t.freeHead = some n) (he : Leaf t e) :
    (t.installed n e).WellFormed := by
  have hvacant : t.Vacant n := h.freeHead_vacant hn
  have hnone : t.nodeAt n = none := entry_eq_none_iff.mp hvacant.2
  have hparent : ∀ p, e.parent = some p → t.Occupied p := by
    intro p hp
    obtain ⟨-, pn, hpn, -⟩ := he.child p hp
    exact .of_read hpn
  have hne : ∀ p, t.Occupied p → p ≠ n := fun p hp hpn =>
    ne_of_vacant_of_occupied hvacant hp hpn.symm
  refine ⟨?bounded, ?free, ?parent, ?depth, ?root, ?children⟩
  case bounded =>
    intro i hi
    rw [occupied_iff, installed_nodeAt] at hi
    by_cases hin : i = n
    · exact hin ▸ hvacant.1
    · rw [if_neg hin] at hi
      exact h.bounded i (occupied_iff.mpr hi)
  case free =>
    rw [installed_freeHead]
    refine (Chain.Lists.pop (hn ▸ h.free)).congr ?_ ?_
    · intro i hi
      rw [installed_nextFreeAt, if_neg hi.2]
    · intro i
      unfold Vacant
      rw [entry_eq_none_iff, entry_eq_none_iff, installed_nodeAt]
      grind
  case parent =>
    intro i nd p hnd hp
    rw [installed_nodeAt] at hnd
    by_cases hin : i = n
    · rw [if_pos hin] at hnd
      obtain rfl := Option.some.inj hnd
      obtain ⟨-, pn, hpn, hrest⟩ := he.child p hp
      exact ⟨pn, by rw [installed_nodeAt, if_neg (hne p (.of_read hpn)), hpn], hrest⟩
    · rw [if_neg hin] at hnd
      obtain ⟨pn, hpn, hrest⟩ := h.parent i nd p hnd hp
      exact ⟨pn, by rw [installed_nodeAt, if_neg (hne p (.of_read hpn)), hpn], hrest⟩
  case depth =>
    intro i nd hnd
    rw [installed_nodeAt] at hnd
    split at hnd
    · exact Option.some.inj hnd ▸ he.depth
    · exact h.depth i nd hnd
  case root =>
    intro i nd hnd hp
    rw [installed_nodeAt] at hnd
    rw [installed_siblingAt]
    split at hnd
    · next hin =>
      obtain rfl := Option.some.inj hnd
      rw [if_pos hin]
      exact he.root hp
    · next hin =>
      rw [if_neg hin]
      exact h.root i nd hnd hp
  case children =>
    intro q
    rw [installed_firstChildAt hparent]
    have hsame : ∀ i, t.parentAt i = some q → i ≠ n := by
      intro i hi
      exact hne i (.of_read hi)
    by_cases hqn : q = n
    · -- nothing has the vacant slot as its parent
      rw [if_pos hqn, he.leaf]
      refine Chain.IsChain.lists (l := []) rfl fun i => ?_
      rw [installed_parentAt]
      have hi : ∀ p, t.parentAt i = some p → p ≠ n := fun p hp => hne p (h.parent_occupied hp)
      grind
    · rw [if_neg hqn]
      by_cases hq : e.parent = some q
      · rw [if_pos hq]
        refine (Chain.Lists.push (h.children q) (i := n) ?_ ?_ ?_).congr (fun _ _ => rfl) ?_
        · exact fun hcon => hsame n hcon rfl
        · rw [installed_siblingAt, if_pos rfl, (he.child q hq).1]
        · intro j hj
          rw [installed_siblingAt, if_neg hj]
        · intro i
          rw [installed_parentAt]
          grind
      · rw [if_neg hq]
        refine (h.children q).congr ?_ ?_
        · intro i hi
          rw [installed_siblingAt, if_neg (hsame i hi)]
        · intro i
          rw [installed_parentAt]
          grind

end Install

/-! ## Removing a leaf -/

section Remove

variable {α : Type} {g : SlotEntry → Option α}

theorem freed_nextFreeAt :
    (t.freed i).nextFreeAt j = if j = i then t.freeHead else t.nextFreeAt j := by
  unfold nextFreeAt
  rw [freed_slots]
  split <;> rfl

theorem freed_generation : ((t.freed i).slots j).generation =
    if j = i then (t.slots i).generation + 1 else (t.slots j).generation := by
  rw [freed_slots]
  split <;> rfl

theorem freed_nodeAt : (t.freed i).nodeAt j = if j = i then none else t.nodeAt j := freed_read

theorem freed_parentAt :
    (t.freed i).parentAt j = if j = i then none else t.parentAt j := freed_read

theorem freed_siblingAt :
    (t.freed i).siblingAt j = if j = i then none else t.siblingAt j := freed_read

theorem freed_firstChildAt :
    (t.freed i).firstChildAt j = if j = i then none else t.firstChildAt j := freed_read

theorem mapEntry_nextFreeAt {f : SlotEntry → SlotEntry} :
    (t.mapEntry i f).nextFreeAt j = t.nextFreeAt j := by
  unfold nextFreeAt
  grind [mapEntry_slots]

theorem mapEntry_generation {f : SlotEntry → SlotEntry} :
    ((t.mapEntry i f).slots j).generation = (t.slots j).generation := by
  grind [mapEntry_slots]

namespace Unlinked

variable (h : Unlinked t i e t')
include h

theorem freeHead : t'.freeHead = t.freeHead := by
  cases h <;> rfl

theorem nextFreeAt : t'.nextFreeAt j = t.nextFreeAt j := by
  cases h with
  | root => rfl
  | head => exact mapEntry_nextFreeAt
  | middle => exact mapEntry_nextFreeAt

theorem generation : (t'.slots j).generation = (t.slots j).generation := by
  cases h with
  | root => rfl
  | head => exact mapEntry_generation
  | middle => exact mapEntry_generation

/-- Unlinking rewrites links only. -/
theorem read_same (hg : ∀ e c s, g { e with firstChild := c, nextSibling := s } = g e) :
    t'.read g j = t.read g j := by
  cases h with
  | root => rfl
  | head => exact mapEntry_read_same fun e => hg e _ e.nextSibling
  | middle => exact mapEntry_read_same fun e => hg e e.firstChild _

theorem nodeAt : t'.nodeAt j = t.nodeAt j := h.read_same fun _ _ _ => rfl

theorem parentAt : t'.parentAt j = t.parentAt j := h.read_same fun _ _ _ => rfl

/-- The only entry whose sibling link is rewritten has a parent. -/
theorem siblingAt_root (hj : t.parentAt j = none) : t'.siblingAt j = t.siblingAt j := by
  cases h with
  | root => rfl
  | head => exact mapEntry_read_same fun _ => rfl
  | @middle p c _ hc =>
    apply mapEntry_read.trans
    rw [if_neg]
    rintro rfl
    rw [hj] at hc
    cases hc

end Unlinked

/-- Once `i` is unlinked, the chain of every slot lists its other children. -/
theorem Unlinked.children (h : Unlinked t i e t') (hwf : t.WellFormed)
    (he : (t.slots i).entry = some e) (q : Index) :
    Chain.Lists t'.siblingAt (t'.firstChildAt q) fun j => t.parentAt j = some q ∧ j ≠ i := by
  have hchildren := hwf.children q
  have hparentAt : t.parentAt i = e.parent := read_of_entry he
  have hsibling : t.siblingAt i = e.nextSibling := read_of_entry he
  cases h with
  | root hroot =>
    refine hchildren.congr (fun _ _ => rfl) fun j => ?_
    have hji : t.parentAt j = some q → j ≠ i := by
      rintro hj rfl
      rw [hparentAt, hroot] at hj
      cases hj
    grind
  | @head p hp hfirst =>
    have hsame : ∀ j, (t.mapEntry p fun pe => { pe with firstChild := e.nextSibling }).siblingAt j
        = t.siblingAt j := fun j => mapEntry_read_same fun _ => rfl
    obtain ⟨pe, hpe⟩ := (Occupied.of_read hfirst).exists_entry
    rw [firstChildAt, mapEntry_read]
    by_cases hqp : q = p
    · subst hqp
      rw [if_pos rfl, read_of_entry hpe]
      have hpop := Chain.Lists.pop (hfirst ▸ hchildren)
      rw [hsibling] at hpop
      exact hpop.congr (fun j _ => hsame j) fun _ => Iff.rfl
    · rw [if_neg hqp]
      refine hchildren.congr (fun j _ => hsame j) fun j => ?_
      grind
  | @middle p c hp hc hci =>
    obtain ⟨ce, hce⟩ := (Occupied.of_read hci).exists_entry
    have hfirst : (t.mapEntry c fun ce => { ce with nextSibling := e.nextSibling }).firstChildAt q
        = t.firstChildAt q := mapEntry_read_same fun _ => rfl
    have hlink : ∀ j, (t.mapEntry c fun ce => { ce with nextSibling := e.nextSibling }).siblingAt j
        = if j = c then e.nextSibling else t.siblingAt j := by
      intro j
      rw [siblingAt, mapEntry_read, read_of_entry hce]
    rw [hfirst]
    by_cases hqp : q = p
    · subst hqp
      refine hchildren.unlink hc hci ?_ ?_
      · rw [hlink, if_pos rfl, hsibling]
      · intro j _ hjc
        rw [hlink, if_neg hjc]
    · refine hchildren.congr ?_ fun j => ?_
      · intro j hj
        rw [hlink, if_neg]
        rintro rfl
        exact hqp (Option.some.inj (hj.symm.trans hc))
      · grind

theorem Unlinked.freed_occupied (h : Unlinked t i e t') :
    (t'.freed i).Occupied j ↔ t.Occupied j ∧ j ≠ i := by
  rw [occupied_iff, occupied_iff, freed_nodeAt, h.nodeAt]
  by_cases hji : j = i <;> simp [hji]

theorem WellFormed.removed (h : t.WellFormed) (he : (t.slots i).entry = some e)
    (hleaf : e.firstChild = none) (hunlink : Unlinked t i e t') : (t'.freed i).WellFormed := by
  have hocc : t.Occupied i := by simp [Occupied, he]
  have hnode : ∀ j, (t'.freed i).nodeAt j = if j = i then none else t.nodeAt j := by
    intro j
    rw [freed_nodeAt, hunlink.nodeAt]
  have hchildless : ∀ j, t.parentAt j ≠ some i := by
    have hfirst : t.firstChildAt i = none := by rw [firstChildAt, read_of_entry he, hleaf]
    exact (h.children i).head_none_iff.mp hfirst
  have hnotVacant : ¬ t.Vacant i := fun hcon => ne_of_vacant_of_occupied hcon hocc rfl
  refine ⟨?bounded, ?free, ?parent, ?depth, ?root, ?children⟩
  case bounded =>
    intro j hj
    rw [occupied_iff, hnode] at hj
    split at hj
    · simp at hj
    · exact h.bounded j (occupied_iff.mpr hj)
  case free =>
    rw [freed_freeHead]
    refine (h.free.push hnotVacant ?_ ?_).congr (fun _ _ => rfl) ?_
    · rw [freed_nextFreeAt, if_pos rfl, hunlink.freeHead]
    · intro j hj
      rw [freed_nextFreeAt, if_neg hj, hunlink.nextFreeAt]
    · intro j
      unfold Vacant
      rw [entry_eq_none_iff, entry_eq_none_iff, hnode]
      have hbound := h.bounded i hocc
      grind
  case parent =>
    intro j nd p hnd hp
    rw [hnode] at hnd
    split at hnd
    · cases hnd
    · obtain ⟨pn, hpn, hrest⟩ := h.parent j nd p hnd hp
      refine ⟨pn, ?_, hrest⟩
      have hpi : p ≠ i := by
        rintro rfl
        exact hchildless j (parentAt_eq_some_iff.mpr ⟨nd, hnd, hp⟩)
      rw [hnode, if_neg hpi, hpn]
  case depth =>
    intro j nd hnd
    rw [hnode] at hnd
    split at hnd
    · cases hnd
    · exact h.depth j nd hnd
  case root =>
    intro j nd hnd hp
    rw [hnode] at hnd
    split at hnd
    · cases hnd
    · next hji =>
      obtain ⟨hdepth, hsib⟩ := h.root j nd hnd hp
      refine ⟨hdepth, ?_⟩
      rw [freed_siblingAt, if_neg hji]
      rw [hunlink.siblingAt_root, hsib]
      rw [← Option.not_isSome_iff_eq_none, Option.isSome_iff_exists]
      rintro ⟨p, hcon⟩
      obtain ⟨nd', hnd', hp'⟩ := parentAt_eq_some_iff.mp hcon
      grind
  case children =>
    intro q
    have hlist := hunlink.children h he q
    by_cases hqi : q = i
    · subst hqi
      rw [freed_firstChildAt, if_pos rfl]
      refine Chain.IsChain.lists (l := []) rfl fun j => ?_
      rw [freed_parentAt, hunlink.parentAt]
      have := hchildless j
      grind
    · rw [freed_firstChildAt, if_neg hqi]
      refine hlist.congr ?_ fun j => ?_
      · rintro j ⟨-, hji⟩
        rw [freed_siblingAt, if_neg hji]
      · rw [freed_parentAt, hunlink.parentAt]
        grind

end Remove

/-! ## Pruning a subtree -/

section Prune

variable {α : Type} {g : SlotEntry → Option α} {src : Index} {ds l : List Index}

theorem freedAll_read :
    (t.freedAll ds).read g j = if j ∈ ds then none else t.read g j := by
  induction ds generalizing t with
  | nil => simp [freedAll]
  | cons d ds ih =>
    change ((t.freed d).freedAll ds).read g j = _
    rw [ih, freed_read]
    grind

theorem freedAll_generation (hnodup : ds.Nodup) : ((t.freedAll ds).slots j).generation =
    if j ∈ ds then (t.slots j).generation + 1 else (t.slots j).generation := by
  induction ds generalizing t with
  | nil => simp [freedAll]
  | cons d ds ih =>
    have hd : d ∉ ds := (List.nodup_cons.mp hnodup).1
    change (((t.freed d).freedAll ds).slots j).generation = _
    rw [ih (List.nodup_cons.mp hnodup).2, freed_generation]
    grind

/-- A slot that is not freed is not touched at all. -/
theorem freedAll_slots (hj : j ∉ ds) : (t.freedAll ds).slots j = t.slots j := by
  induction ds generalizing t with
  | nil => rfl
  | cons d ds ih =>
    rw [List.mem_cons, not_or] at hj
    change ((t.freed d).freedAll ds).slots j = _
    rw [ih hj.2, freed_slots, if_neg hj.1]

/-- The freed slots are pushed on the free list in the order they are freed. -/
theorem freedAll_chain (hl : Chain.IsChain t.nextFreeAt t.freeHead l) (hnodup : ds.Nodup)
    (hdisjoint : ∀ d ∈ ds, d ∉ l) :
    Chain.IsChain (t.freedAll ds).nextFreeAt (t.freedAll ds).freeHead (ds.reverse ++ l) := by
  induction ds generalizing t l with
  | nil => simpa [freedAll] using hl
  | cons d ds ih =>
    obtain ⟨hd, hds⟩ := List.nodup_cons.mp hnodup
    have hpush : Chain.IsChain (t.freed d).nextFreeAt (t.freed d).freeHead (d :: l) := by
      rw [freed_freeHead]
      refine hl.push (hdisjoint d List.mem_cons_self) ?_ ?_
      · rw [freed_nextFreeAt, if_pos rfl]
      · intro j hj
        rw [freed_nextFreeAt, if_neg hj]
    have hrest := ih hpush hds (by grind)
    simpa [freedAll] using hrest

theorem pruned_nextFreeAt : (t.pruned src ds).nextFreeAt j = (t.freedAll ds).nextFreeAt j :=
  mapEntry_nextFreeAt

theorem pruned_generation (hnodup : ds.Nodup) : ((t.pruned src ds).slots j).generation =
    if j ∈ ds then (t.slots j).generation + 1 else (t.slots j).generation :=
  mapEntry_generation.trans (freedAll_generation hnodup)

theorem pruned_read_same (hg : ∀ e c, g { e with firstChild := c } = g e) :
    (t.pruned src ds).read g j = if j ∈ ds then none else t.read g j :=
  (mapEntry_read_same fun e => hg e none).trans freedAll_read

theorem pruned_nodeAt :
    (t.pruned src ds).nodeAt j = if j ∈ ds then none else t.nodeAt j :=
  pruned_read_same fun _ _ => rfl

theorem pruned_parentAt :
    (t.pruned src ds).parentAt j = if j ∈ ds then none else t.parentAt j :=
  pruned_read_same fun _ _ => rfl

theorem pruned_siblingAt :
    (t.pruned src ds).siblingAt j = if j ∈ ds then none else t.siblingAt j :=
  pruned_read_same fun _ _ => rfl

theorem pruned_firstChildAt : (t.pruned src ds).firstChildAt j =
    if j ∈ ds ∨ j = src then none else t.firstChildAt j := by
  apply mapEntry_read.trans
  rw [freedAll_read, freedAll_read]
  cases h : (t.slots src).entry with
  | none => grind [read_of_none h]
  | some e => grind [read_of_entry h]

theorem pruned_occupied : (t.pruned src ds).Occupied j ↔ t.Occupied j ∧ j ∉ ds := by
  rw [occupied_iff, occupied_iff, pruned_nodeAt]
  by_cases hj : j ∈ ds <;> simp [hj]

theorem WellFormed.pruned (h : t.WellFormed) (hnodup : ds.Nodup)
    (hds : ∀ d, d ∈ ds ↔ t.StrictDescendant src d) : (t.pruned src ds).WellFormed := by
  -- the parent of a remaining slot remains: otherwise the slot would be below `src` too
  have hstays : ∀ j p, t.parentAt j = some p → j ∉ ds → p ∉ ds := by
    intro j p hp hj hpds
    exact hj ((hds j).mpr (((hds p).mp hpds).tail hp))
  refine ⟨?bounded, ?free, ?parent, ?depth, ?root, ?children⟩
  case bounded =>
    intro j hj
    rw [occupied_iff, pruned_nodeAt] at hj
    split at hj
    · simp at hj
    · exact h.bounded j (occupied_iff.mpr hj)
  case free =>
    obtain ⟨l, hl, -, hmem⟩ := h.free
    have hoccupied : ∀ d ∈ ds, t.Occupied d := fun d hd => occupied_of_below ((hds d).mp hd)
    have hdisjoint : ∀ d ∈ ds, d ∉ l := by
      intro d hd hdl
      exact ne_of_vacant_of_occupied ((hmem d).mp hdl) (hoccupied d hd) rfl
    have hchain : Chain.IsChain (t.pruned src ds).nextFreeAt (t.pruned src ds).freeHead
        (ds.reverse ++ l) :=
      (freedAll_chain hl hnodup hdisjoint).congr fun j _ => pruned_nextFreeAt
    refine hchain.lists fun j => ?_
    unfold Vacant at *
    rw [entry_eq_none_iff, pruned_nodeAt]
    simp only [List.mem_append, List.mem_reverse, hmem j, entry_eq_none_iff]
    have hbound := fun hj => h.bounded j (hoccupied j hj)
    grind
  case parent =>
    intro j nd p hnd hp
    rw [pruned_nodeAt] at hnd
    split at hnd
    · cases hnd
    · next hj =>
      obtain ⟨pn, hpn, hrest⟩ := h.parent j nd p hnd hp
      refine ⟨pn, ?_, hrest⟩
      rw [pruned_nodeAt, if_neg (hstays j p (parentAt_eq_some_iff.mpr ⟨nd, hnd, hp⟩) hj), hpn]
  case depth =>
    intro j nd hnd
    rw [pruned_nodeAt] at hnd
    split at hnd
    · cases hnd
    · exact h.depth j nd hnd
  case root =>
    intro j nd hnd hp
    rw [pruned_nodeAt] at hnd
    rw [pruned_siblingAt]
    split at hnd
    · cases hnd
    · next hj =>
      rw [if_neg hj]
      exact h.root j nd hnd hp
  case children =>
    intro q
    rw [pruned_firstChildAt]
    by_cases hq : q ∈ ds ∨ q = src
    · rw [if_pos hq]
      refine Chain.IsChain.lists (l := []) rfl fun j => ?_
      rw [pruned_parentAt]
      -- a child of `src` or of a slot below it is itself below `src`
      have hbelow : t.parentAt j = some q → j ∈ ds := by
        intro hj
        rcases hq with hq | rfl
        · exact (hds j).mpr (((hds q).mp hq).tail hj)
        · exact (hds j).mpr (.child hj)
      grind
    · rw [if_neg hq]
      have hkept : ∀ j, t.parentAt j = some q → j ∉ ds := by
        intro j hj hjds
        rcases Forest.below_iff.mp ((hds j).mp hjds) with hp | ⟨q', hp, hq'⟩
        · exact hq (Or.inr (Option.some.inj (hj.symm.trans hp)))
        · obtain rfl := Option.some.inj (hj.symm.trans hp)
          exact hq (Or.inl ((hds q).mpr hq'))
      refine (h.children q).congr ?_ fun j => ?_
      · intro j hj
        rw [pruned_siblingAt, if_neg (hkept j hj)]
      · rw [pruned_parentAt]
        have := hkept j
        grind

end Prune

end CapabilityTable

end Tyrne
