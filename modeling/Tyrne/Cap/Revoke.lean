import Tyrne.Cap.Ops

/-!
# Revocation

`capRevoke` collects the strict descendants of its source breadth first in a scratch
array and then frees them. The loop invariant of the collection is `Forest.Frontier`;
since its entries are distinct, occupied and different from the source, they always
leave room in the array, so neither bound check is ever reached.
-/

namespace Tyrne.CapabilityTable

open Forest

variable {t : CapabilityTable} {e : SlotEntry} {src : Index} {hd : CapHandle}

/-- The children of a slot as they stand on its sibling chain. -/
theorem WellFormed.exists_kids (h : t.WellFormed) (p : Index) :
    ∃ kids, Chain.IsChain t.siblingAt (t.firstChildAt p) kids ∧ kids.Nodup ∧
      (∀ c, c ∈ kids ↔ t.parentAt c = some p) ∧ ∀ c ∈ kids, c.toNat < capTableCapacity := by
  obtain ⟨kids, hchain, hnodup, hmem⟩ := h.children p
  exact ⟨kids, hchain, hnodup, hmem, fun c hc => h.bounded c (.of_read ((hmem c).mp hc))⟩

/-- The worklist never fills the scratch array: the source itself is not on it. -/
theorem WellFormed.frontier_length (h : t.WellFormed) (hsrc : t.Occupied src) {scan : ℕ}
    {ds : List Index} (hds : Frontier t.parentAt src scan ds) :
    ds.length < capTableCapacity := by
  have hnotMem : src ∉ ds := fun hmem => h.not_below_self src (hds.below src hmem)
  have hnodup : (src :: ds).Nodup := List.nodup_cons.mpr ⟨hnotMem, hds.nodup⟩
  have hbound : ∀ i ∈ src :: ds, i.toNat < capTableCapacity := by
    intro i hi
    rcases List.mem_cons.mp hi with rfl | hi
    · exact h.bounded _ hsrc
    · exact h.bounded i (occupied_of_below (hds.below i hi))
  have hlength := length_le_of_nodup hnodup hbound
  rwa [List.length_cons] at hlength

variable [Build]

/-- A sibling chain that fits is appended in order. -/
theorem collectSiblings_run {head : Option Index} {l ds : List Index} {room : ℕ}
    (hchain : Chain.IsChain t.siblingAt head l)
    (hbound : ∀ i ∈ l, i.toNat < capTableCapacity) (hroom : l.length ≤ room) :
    (collectSiblings room head ds).run t = .ok (ds ++ l) t := by
  induction l generalizing head ds room with
  | nil =>
    obtain rfl : head = none := hchain
    cases room <;> simp [collectSiblings]
  | cons c l ih =>
    obtain ⟨rfl, htail⟩ := hchain
    obtain ⟨room, rfl⟩ : ∃ k, room = k + 1 := ⟨room - 1, by simp at hroom; omega⟩
    have hroom' : l.length ≤ room := by simpa using hroom
    have hrest : (collectSiblings room (t.siblingAt c) (ds ++ [c])).run t =
        .ok (ds ++ [c] ++ l) t :=
      ih htail (fun i hi => hbound i (List.mem_cons_of_mem _ hi)) hroom'
    rw [collectSiblings, Prog.bind_ok (slotAt_run (hbound c List.mem_cons_self))]
    simpa [siblingAt, read] using hrest

/-- From any stage of the worklist the loop ends with all strict descendants. -/
theorem collectDescendants_run (h : t.WellFormed) (hsrc : t.Occupied src) {steps scan : ℕ}
    {ds : List Index} (hsteps : scan + steps = capTableCapacity)
    (hds : Frontier t.parentAt src scan ds) :
    ∃ ds', (collectDescendants steps scan ds).run t = .ok ds' t ∧ ds'.Nodup ∧
      ∀ d, d ∈ ds' ↔ t.StrictDescendant src d := by
  induction steps generalizing scan ds with
  | zero =>
    have hlength := h.frontier_length hsrc hds
    exact ⟨ds, rfl, hds.nodup, hds.complete (by omega)⟩
  | succ steps ih =>
    unfold collectDescendants
    cases hidx : ds[scan]? with
    | none => exact ⟨ds, rfl, hds.nodup, hds.complete (List.getElem?_eq_none_iff.mp hidx)⟩
    | some idx =>
      obtain ⟨kids, hchain, hnodup, hmem, hbound⟩ := h.exists_kids idx
      have hidxBelow := hds.below idx (List.mem_of_getElem? hidx)
      have hnext := hds.step hidx (h.not_below_self src) hnodup hmem
      have hroom : kids.length ≤ capTableCapacity - ds.length := by
        have hlength := h.frontier_length hsrc hnext
        rw [List.length_append] at hlength
        omega
      obtain ⟨ds', hrun, hds'⟩ := ih (by omega) hnext
      refine ⟨ds', ?_, hds'⟩
      rw [firstChildAt, read] at hchain
      dsimp only
      rw [Prog.bind_ok (slotAt_run (h.bounded idx (occupied_of_below hidxBelow))),
        Prog.bind_ok (collectSiblings_run hchain hbound hroom), hrun]

theorem freeAll_run {ds : List Index} (hbound : ∀ i ∈ ds, i.toNat < capTableCapacity) :
    (forM ds freeSlot).run t = .ok () (t.freedAll ds) := by
  induction ds generalizing t with
  | nil => rfl
  | cons d ds ih =>
    rw [List.forM_cons, Prog.bind_ok (freeSlot_run (hbound d List.mem_cons_self)),
      ih fun i hi => hbound i (List.mem_cons_of_mem _ hi)]
    rfl

/-- On a live handle with the right, a revocation prunes exactly the strict
descendants. -/
theorem capRevoke_ok (h : t.WellFormed) (he : Resolves t hd e)
    (hrights : e.capability.rights.contains .revoke) :
    ∃ ds, ds.Nodup ∧ (∀ d, d ∈ ds ↔ t.StrictDescendant hd.index d) ∧
      (capRevoke hd).run t = .ok () (t.pruned hd.index ds) := by
  have hocc : t.Occupied hd.index := by simp [Occupied, he.entry]
  obtain ⟨kids, hchain, hnodup, hmem, hbound⟩ := h.exists_kids hd.index
  rw [show t.firstChildAt hd.index = e.firstChild from read_of_entry he.entry] at hchain
  have hstart : Frontier t.parentAt hd.index 0 kids := .start hnodup hmem
  have hroom := Nat.le_of_lt (h.frontier_length hocc hstart)
  obtain ⟨ds, hrun, hds, hdsMem⟩ := collectDescendants_run h hocc (Nat.zero_add _) hstart
  have hdsBound : ∀ i ∈ ds, i.toNat < capTableCapacity := fun i hi =>
    h.bounded i (occupied_of_below ((hdsMem i).mp hi))
  refine ⟨ds, hds, hdsMem, ?_⟩
  unfold capRevoke
  rw [Prog.bind_ok (resolveHandle_ok he), Prog.bind_ok (slotAt_run he.bounded), he.entry,
    Prog.okOr_some, Prog.pure_bind_run, Prog.require_pos hrights, Prog.pure_bind_run,
    Prog.bind_ok (collectSiblings_run hchain hbound hroom), List.nil_append,
    Prog.bind_ok hrun, Prog.bind_ok (freeAll_run hdsBound), modifyEntry_run he.bounded]
  rfl

/-- A revocation reports its first failing check and changes nothing, or prunes the strict
descendants. -/
theorem capRevoke_run (h : t.WellFormed) (hd : CapHandle) :
    (∃ err, firstError (t.revokeChecks hd) = some err ∧ (capRevoke hd).run t = .err err t) ∨
    (∃ e ds, firstError (t.revokeChecks hd) = none ∧ Resolves t hd e ∧
      e.capability.rights.contains .revoke ∧ ds.Nodup ∧
      (∀ d, d ∈ ds ↔ t.StrictDescendant hd.index d) ∧
      (capRevoke hd).run t = .ok () (t.pruned hd.index ds)) := by
  unfold revokeChecks
  by_cases hres : ∃ e, Resolves t hd e
  swap
  · rw [not_exists] at hres
    exact Or.inl ⟨_, firstError_fail (handleCheck_fail hres),
      Prog.bind_err (resolveHandle_err hres)⟩
  obtain ⟨e, he⟩ := hres
  rw [firstError_pass he.handleCheck]
  by_cases hrights : e.capability.rights.contains .revoke
  · obtain ⟨ds, hnodup, hds, hrun⟩ := capRevoke_ok h he hrights
    refine Or.inr ⟨e, ds, firstError_pass ?_, he, hrights, hnodup, hds, hrun⟩
    rw [he.rightsCheck, decide_eq_true hrights]
  · refine Or.inl ⟨.insufficientRights, firstError_fail ?_, ?_⟩
    · rw [he.rightsCheck, decide_eq_false hrights]
    · unfold capRevoke
      rw [Prog.bind_ok (resolveHandle_ok he), Prog.bind_ok (slotAt_run he.bounded), he.entry,
        Prog.okOr_some, Prog.pure_bind_run, Prog.require_neg hrights]
      rfl

end Tyrne.CapabilityTable
