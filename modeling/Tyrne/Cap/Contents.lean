import Tyrne.Cap.Ops

/-!
# The capabilities a table holds

The contents of a table as a multiset. Installing a leaf adds its capability, removing a
leaf takes it away; links do not matter.
-/

namespace Tyrne.CapabilityTable

variable {t t' : CapabilityTable} {i n : Index} {e : SlotEntry} {hd : CapHandle} {c : Capability}

/-- What the slot `i` contributes. -/
def contentAt (t : CapabilityTable) (i : Index) : Multiset Capability :=
  match t.nodeAt i with
  | none => 0
  | some nd => {nd.capability}

def capabilities (t : CapabilityTable) : Multiset Capability :=
  ∑ i ∈ cells capTableCapacity, t.contentAt i

theorem capabilities_exchange (hn : n.toNat < capTableCapacity)
    (hoff : ∀ i, i ≠ n → t'.nodeAt i = t.nodeAt i) :
    t'.capabilities + t.contentAt n = t.capabilities + t'.contentAt n := by
  apply sum_exchange ((mem_cells (by decide)).mpr hn)
  intro i hi
  unfold contentAt
  rw [hoff i hi]

theorem installed_capabilities (h : t.WellFormed) (hn : t.freeHead = some n) :
    (t.installed n e).capabilities = e.capability ::ₘ t.capabilities := by
  have hvacant := h.freeHead_vacant hn
  have hold : t.contentAt n = 0 := by
    simp [contentAt, entry_eq_none_iff.mp hvacant.2]
  have hnew : (t.installed n e).contentAt n = {e.capability} := by
    simp [contentAt, installed_nodeAt, SlotEntry.node]
  have hsum : (t.installed n e).capabilities + t.contentAt n =
      t.capabilities + (t.installed n e).contentAt n :=
    capabilities_exchange hvacant.1 fun i hi => by rw [installed_nodeAt, if_neg hi]
  rwa [hold, hnew, add_zero, add_comm, Multiset.singleton_add] at hsum

theorem removed_capabilities (he : (t.slots i).entry = some e)
    (hi : i.toNat < capTableCapacity) (hunlink : Unlinked t i e t') :
    t.capabilities = e.capability ::ₘ (t'.freed i).capabilities := by
  have hold : t.contentAt i = {e.capability} := by
    simp [contentAt, read_of_entry he, SlotEntry.node]
  have hnew : (t'.freed i).contentAt i = 0 := by
    simp [contentAt]
  have hsum : (t'.freed i).capabilities + t.contentAt i =
      t.capabilities + (t'.freed i).contentAt i :=
    capabilities_exchange hi fun j hj => by rw [freed_nodeAt, if_neg hj, hunlink.nodeAt]
  rw [hold, hnew, add_zero, add_comm, Multiset.singleton_add] at hsum
  exact hsum.symm

/-- A root inserted in the table adds its capability, and its handle names it. -/
theorem insertRoot_moves (h : t.WellFormed) (hrun : (insertRoot c).run t = .ok hd t') :
    t'.WellFormed ∧ t'.capabilities = c ::ₘ t.capabilities ∧ (lookup hd).run t' = .ok c t' := by
  rcases insertRoot_run h c with ⟨-, hfull⟩ | ⟨n, hn, hok⟩
  · rw [hrun] at hfull
    cases hfull
  · rw [hrun] at hok
    cases hok
    exact ⟨h.installed hn (rootEntry_leaf t c), installed_capabilities h hn,
      lookup_installed h hn⟩

/-- A taken capability leaves the table, and its handle no longer resolves. -/
theorem capTake_moves [Build] (h : t.WellFormed) (hrun : (capTake hd).run t = .ok c t') :
    t'.WellFormed ∧ t.capabilities = c ::ₘ t'.capabilities ∧ (lookup hd).run t = .ok c t ∧
      (lookup hd).run t' = .err .invalidHandle t' := by
  rcases capTake_run h hd with ⟨err, -, herr⟩ | ⟨e, u, -, he, hleaf, hunlink, hok⟩
  · rw [hrun] at herr
    cases herr
  · rw [hrun] at hok
    cases hok
    refine ⟨h.removed he.entry hleaf hunlink,
      removed_capabilities he.entry he.bounded hunlink, lookup_ok he, lookup_err ?_⟩
    intro e' he'
    have hgone : ((u.freed hd.index).slots hd.index).entry = none := by simp
    rw [he'.entry] at hgone
    cases hgone

end Tyrne.CapabilityTable
