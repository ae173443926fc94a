import Mathlib.Data.BitVec
import Tyrne.Cap.Runs

/-!
# Handles over time

A handle names a slot together with the slot's generation at the time it was issued.
Every operation that vacates a slot bumps its generation exactly once, so whether a
handle still resolves is decided by how often the slot was freed since.
-/

namespace Tyrne.CapabilityTable

variable {t t' : CapabilityTable} {i j n p : Index} {e : SlotEntry} {hd : CapHandle}

/-! ## The history of a slot -/

/-- The event vacates the slot `i`. -/
def Frees (i : Index) (ev : TableEvent) : Prop := ev.before.Occupied i ∧ ¬ ev.after.Occupied i

instance (i : Index) (ev : TableEvent) : Decidable (Frees i ev) :=
  inferInstanceAs (Decidable (_ ∧ _))

/-- How often the events free the slot `i`. -/
def freeCount (i : Index) (evs : List TableEvent) : ℕ := evs.countP fun ev => Frees i ev

/-- The capability that an operation issues a handle for when it succeeds. -/
def issuedCapability (t : CapabilityTable) : TableOp → Option Capability
  | .insertRoot cap => some cap
  | .capCopy src newRights =>
    match (lookup src).run t with
    | .ok cap _ => some ⟨newRights, cap.object⟩
    | _ => none
  | .capDerive _ newRights newObject => some ⟨newRights, newObject⟩
  | _ => none

/-- The event drops or takes the capability that `hd` names, or revokes a strict
ancestor of its slot. -/
def Releases (hd : CapHandle) (ev : TableEvent) : Prop :=
  (∃ r, ev.reply = .ok r) ∧
  match ev.op with
  | .capDrop handle => handle = hd
  | .capTake handle => handle = hd
  | .capRevoke src => ev.before.StrictDescendant src.index hd.index
  | _ => False

/-! ## What one step does to a slot -/

/-- The generation counts the frees: a step bumps it exactly when it vacates the slot. -/
theorem Effect.generation {op : TableOp} {reply : Except CapError TableReply}
    (heffect : Effect t op reply t') : (t'.slots i).generation = (t.slots i).generation +
      if t.Occupied i ∧ ¬ t'.Occupied i then 1 else 0 := by
  have hinstalled : ∀ {n : Index} {e : SlotEntry}, ((t.installed n e).slots i).generation =
      (t.slots i).generation + if t.Occupied i ∧ ¬ (t.installed n e).Occupied i then 1 else 0 := by
    intro n e
    rw [installed_generation, if_neg]
    · simp
    · rw [installed_occupied]
      tauto
  have hremoved : ∀ {k : Index} {e : SlotEntry} {u : CapabilityTable},
      (t.slots k).entry = some e → Unlinked t k e u → ((u.freed k).slots i).generation =
        (t.slots i).generation + if t.Occupied i ∧ ¬ (u.freed k).Occupied i then 1 else 0 := by
    intro k e u he hunlink
    have hocc : t.Occupied k := by simp [Occupied, he]
    rw [freed_generation, hunlink.generation, hunlink.generation]
    by_cases hik : i = k
    · subst hik
      rw [if_pos rfl, if_pos ⟨hocc, by simp [hunlink.freed_occupied]⟩]
    · rw [if_neg hik, if_neg]
      · simp
      · rw [hunlink.freed_occupied]
        tauto
  cases heffect with
  | failed => simp
  | insertRoot => exact hinstalled
  | capCopy => exact hinstalled
  | capDerive => exact hinstalled
  | capDrop he _ hunlink => exact hremoved he.entry hunlink
  | capTake he _ hunlink => exact hremoved he.entry hunlink
  | capRevoke _ _ hnodup hds =>
    simp only [pruned_generation hnodup, pruned_occupied]
    split
    · next hi =>
      have hocc := occupied_of_below ((hds i).mp hi)
      simp [hi, hocc]
    · next hi => simp [hi]

/-- A released handle's slot is vacated. -/
theorem Effect.frees_of_releases {ev : TableEvent}
    (heffect : Effect ev.before ev.op ev.reply ev.after) (hrel : Releases hd ev) :
    Frees hd.index ev := by
  obtain ⟨before, op, reply, after⟩ := ev
  obtain ⟨⟨r, hr⟩, hop⟩ := hrel
  dsimp only at heffect hr hop
  cases heffect with
  | failed => cases hr
  | insertRoot => exact hop.elim
  | capCopy => exact hop.elim
  | capDerive => exact hop.elim
  | capRevoke he _ hnodup hds =>
    refine ⟨occupied_of_below hop, ?_⟩
    dsimp only
    rw [pruned_occupied, hds]
    exact fun hcon => hcon.2 hop
  | capDrop he _ hunlink =>
    subst hop
    refine ⟨by simp [Occupied, he.entry], ?_⟩
    dsimp only
    rw [hunlink.freed_occupied]
    exact fun hcon => hcon.2 rfl
  | capTake he _ hunlink =>
    subst hop
    refine ⟨by simp [Occupied, he.entry], ?_⟩
    dsimp only
    rw [hunlink.freed_occupied]
    exact fun hcon => hcon.2 rfl

/-- A handle that resolves and is not released still resolves, to the same capability. -/
theorem Effect.lookup_kept {ev : TableEvent} {c : Capability} (h : ev.before.WellFormed)
    (heffect : Effect ev.before ev.op ev.reply ev.after) (hrel : ¬ Releases hd ev)
    (hlive : (lookup hd).run ev.before = .ok c ev.before) :
    (lookup hd).run ev.after = .ok c ev.after := by
  obtain ⟨before, op, reply, after⟩ := ev
  obtain ⟨e, he, -⟩ := lookup_eq_ok_iff.mp hlive
  dsimp only at *
  have hocc : before.Occupied hd.index := by simp [Occupied, he.entry]
  have hinstalled : ∀ {n : Index} {e : SlotEntry}, before.freeHead = some n →
      (lookup hd).run (before.installed n e) = .ok c (before.installed n e) := by
    intro n e hn
    have hne := ne_of_vacant_of_occupied (h.freeHead_vacant hn) hocc
    exact (lookup_congr installed_generation
      (by rw [installed_nodeAt, if_neg hne.symm])).mpr hlive
  -- a drop or take of another slot; of this slot it would be through this very handle
  have hremoved : ∀ {hd' : CapHandle} {e' : SlotEntry} {u : CapabilityTable},
      Resolves before hd' e' → Unlinked before hd'.index e' u → hd' ≠ hd →
      (lookup hd).run (u.freed hd'.index) = .ok c (u.freed hd'.index) := by
    intro hd' e' u he' hunlink hne
    have hindex : hd.index ≠ hd'.index := by
      intro hindex
      apply hne
      have hgen := he'.generation.symm.trans ((congrArg (fun i => (before.slots i).generation)
        hindex.symm).trans he.generation)
      cases hd
      cases hd'
      simp_all
    refine (lookup_congr ?_ ?_).mpr hlive
    · rw [freed_generation, if_neg hindex, hunlink.generation]
    · rw [freed_nodeAt, if_neg hindex, hunlink.nodeAt]
  cases heffect with
  | failed => exact hlive
  | insertRoot hn => exact hinstalled hn
  | capCopy _ hn => exact hinstalled hn
  | capDerive _ hn => exact hinstalled hn
  | capRevoke he' _ hnodup hds =>
    have hmem : hd.index ∉ _ := fun hmem => hrel ⟨⟨_, rfl⟩, (hds hd.index).mp hmem⟩
    refine (lookup_congr ?_ ?_).mpr hlive
    · rw [pruned_generation hnodup, if_neg hmem]
    · rw [pruned_nodeAt, if_neg hmem]
  | capDrop he' _ hunlink =>
    exact hremoved he' hunlink fun hne => hrel ⟨⟨_, rfl⟩, hne⟩
  | capTake he' _ hunlink =>
    exact hremoved he' hunlink fun hne => hrel ⟨⟨_, rfl⟩, hne⟩

/-- An issued handle resolves to the capability it was issued for. -/
theorem Effect.lookup_issued {op : TableOp} (h : t.WellFormed)
    (heffect : Effect t op (.ok (.handle hd)) t') :
    ∃ c, issuedCapability t op = some c ∧ (lookup hd).run t' = .ok c t' := by
  cases heffect with
  | insertRoot hn => exact ⟨_, rfl, lookup_installed h hn⟩
  | @capCopy src newRights e n he hn _ _ =>
    refine ⟨_, ?_, lookup_installed h hn⟩
    simp only [issuedCapability, lookup_ok he]
    rfl
  | capDerive _ hn => exact ⟨_, rfl, lookup_installed h hn⟩

/-! ## What resolves was issued -/

/-- An operation of the run returned the handle. -/
def Issued (evs : List TableEvent) (hd : CapHandle) : Prop :=
  ∃ ev ∈ evs, ev.reply = .ok (.handle hd)

theorem lookup_ok_iff_occupied : (∃ c, (lookup hd).run t = .ok c t) ↔
    hd.index.toNat < capTableCapacity ∧ (t.slots hd.index).generation = hd.generation ∧
      t.Occupied hd.index := by
  constructor
  · intro hlive
    obtain ⟨c, hc⟩ := hlive
    obtain ⟨e, he, _⟩ := lookup_eq_ok_iff.mp hc
    exact ⟨he.bounded, he.generation, by simp [Occupied, he.entry]⟩
  · intro hslot
    obtain ⟨hbound, hgen, hocc⟩ := hslot
    obtain ⟨e, he⟩ := hocc.exists_entry
    exact ⟨_, lookup_ok ⟨hbound, hgen, he⟩⟩

/-- A handle other than the one of a new entry resolves as before. -/
theorem lookup_installed_other {c : Capability}
    (hne : hd ≠ ⟨n, (t.slots n).generation⟩) :
    (lookup hd).run (t.installed n e) = .ok c (t.installed n e) ↔ (lookup hd).run t = .ok c t := by
  by_cases hindex : hd.index = n
  · have hstale : (t.slots hd.index).generation ≠ hd.generation := by
      intro hgen
      apply hne
      obtain ⟨i, g⟩ := hd
      dsimp only at hindex hgen
      subst hindex
      rw [hgen]
    constructor
    · intro hrun
      obtain ⟨e', he', _⟩ := lookup_eq_ok_iff.mp hrun
      exact absurd (installed_generation.symm.trans he'.generation) hstale
    · intro hrun
      obtain ⟨e', he', _⟩ := lookup_eq_ok_iff.mp hrun
      exact absurd he'.generation hstale
  · exact lookup_congr installed_generation (by rw [installed_nodeAt, if_neg hindex])

/-- An operation that occupies a slot returns its handle. -/
theorem Effect.handle_of_occupies {op : TableOp} {reply : Except CapError TableReply}
    (heffect : Effect t op reply t') (hfree : ¬ t.Occupied i)
    (hocc : t'.Occupied i) : reply = .ok (.handle ⟨i, (t.slots i).generation⟩) := by
  have hinstalled : ∀ {n : Index} {e : SlotEntry}, (t.installed n e).Occupied i → n = i := by
    intro n e hocc
    rw [installed_occupied] at hocc
    rcases hocc with rfl | hocc
    · rfl
    · exact absurd hocc hfree
  have hremoved : ∀ {k : Index} {e : SlotEntry} {u : CapabilityTable},
      Unlinked t k e u → ¬ (u.freed k).Occupied i := by
    intro k e u hunlink hocc
    rw [hunlink.freed_occupied] at hocc
    exact hfree hocc.1
  cases heffect with
  | failed => exact absurd hocc hfree
  | insertRoot => rw [hinstalled hocc]
  | capCopy => rw [hinstalled hocc]
  | capDerive => rw [hinstalled hocc]
  | capRevoke =>
    rw [pruned_occupied] at hocc
    exact absurd hocc.1 hfree
  | capDrop _ _ hunlink => exact absurd hocc (hremoved hunlink)
  | capTake _ _ hunlink => exact absurd hocc (hremoved hunlink)

/-- What resolves after an operation did before, or the operation has issued it. -/
theorem Effect.lookup_back {op : TableOp} {reply : Except CapError TableReply}
    (heffect : Effect t op reply t')
    (hlive : ∃ c, (lookup hd).run t' = .ok c t') :
    (∃ c, (lookup hd).run t = .ok c t) ∨ reply = .ok (.handle hd) := by
  obtain ⟨hbound, hgen, hocc⟩ := lookup_ok_iff_occupied.mp hlive
  rw [heffect.generation, if_neg fun hboth => hboth.2 hocc, add_zero] at hgen
  by_cases hbefore : t.Occupied hd.index
  · exact Or.inl (lookup_ok_iff_occupied.mpr ⟨hbound, hgen, hbefore⟩)
  · right
    rw [heffect.handle_of_occupies hbefore hocc, hgen]

/-! ## Whole runs -/

/-- One for each event that `p` holds of. -/
theorem sum_countP {ε : Type*} (p : ε → Prop) [DecidablePred p] (evs : List ε) :
    (evs.map fun ev => if p ev then (1 : Generation) else 0).sum =
      BitVec.ofNat 32 (evs.countP fun ev => p ev) := by
  induction evs with
  | nil => rfl
  | cons ev evs ih =>
    rw [List.map_cons, List.sum_cons, ih, List.countP_cons, BitVec.ofNat_add, add_comm]
    by_cases hp : p ev <;> simp [hp]

variable [Build]

theorem step_effect {ev : TableEvent} (h : t.WellFormed) (hstep : TableStep t ev t') :
    ev.before.WellFormed ∧ Effect ev.before ev.op ev.reply ev.after := by
  have heffect := Effect.of_step h hstep
  obtain ⟨rfl, rfl, -⟩ := hstep
  exact ⟨h, heffect⟩

omit [Build] in
/-- The generation is back at the handle's exactly after a multiple of `2 ^ 32` frees. -/
theorem lookup_iff_of_freed {n : ℕ} (hbound : hd.index.toNat < capTableCapacity)
    (hgen : (t.slots hd.index).generation = hd.generation + BitVec.ofNat 32 n) :
    (∃ c, (lookup hd).run t = .ok c t) ↔ t.Occupied hd.index ∧ n % 2 ^ 32 = 0 := by
  have hback : (t.slots hd.index).generation = hd.generation ↔ n % 2 ^ 32 = 0 := by
    rw [hgen]
    constructor
    · intro heq
      have hzero : BitVec.ofNat 32 n = 0 := by simpa using heq
      simpa using congrArg BitVec.toNat hzero
    · intro hmod
      have hzero : BitVec.ofNat 32 n = 0 := BitVec.eq_of_toNat_eq (by simpa using hmod)
      rw [hzero, add_zero]
  rw [lookup_ok_iff_occupied, hback]
  exact ⟨fun ⟨_, hmod, hocc⟩ => ⟨hocc, hmod⟩, fun ⟨hocc, hmod⟩ => ⟨hbound, hmod, hocc⟩⟩

/-- Over a run the generation of a slot grows by the number of times it was freed. -/
theorem generation_of_run {evs : List TableEvent} (h : t.WellFormed)
    (hrun : TableRun t evs t') : (t'.slots i).generation =
      (t.slots i).generation + BitVec.ofNat 32 (freeCount i evs) := by
  unfold freeCount
  rw [← sum_countP]
  apply (hrun.with_invariant (I := WellFormed) (fun _ _ _ => step_wellFormed) h).sum_cost
    (fun t => (t.slots i).generation)
  rintro t ev t' ⟨hwf, hstep⟩
  obtain ⟨-, heffect⟩ := step_effect hwf hstep
  obtain ⟨rfl, rfl, -⟩ := hstep
  exact heffect.generation

theorem frees_of_run {evs : List TableEvent} (h : t.WellFormed) (hrun : TableRun t evs t')
    {ev : TableEvent} (hev : ev ∈ evs) (hrel : Releases hd ev) : Frees hd.index ev := by
  obtain ⟨t₁, t₂, past, rest, hpast, hstep, -, -⟩ := hrun.exists_step hev
  have hwf := hpast.invariant (I := WellFormed) (fun _ _ _ => step_wellFormed) h
  exact (step_effect hwf hstep).2.frees_of_releases hrel

/-- Until it is released, a handle resolves to the same capability. -/
theorem lookup_kept_of_run {evs : List TableEvent} {c : Capability} (h : t.WellFormed)
    (hrun : TableRun t evs t') (hlive : (lookup hd).run t = .ok c t)
    (hrel : ∀ ev ∈ evs, ¬ Releases hd ev) : (lookup hd).run t' = .ok c t' := by
  induction hrun with
  | nil => exact hlive
  | @cons t t₁ t' ev evs hstep hrest ih =>
    obtain ⟨hwf, heffect⟩ := step_effect h hstep
    refine ih (step_wellFormed h hstep) ?_ fun ev hev => hrel ev (List.mem_cons_of_mem _ hev)
    obtain ⟨rfl, rfl, -⟩ := hstep
    exact heffect.lookup_kept hwf (hrel ev List.mem_cons_self) hlive

theorem issued_of_run {evs : List TableEvent} (hrun : TableRun new evs t)
    (hlive : ∃ c, (lookup hd).run t = .ok c t) : Issued evs hd := by
  have hall := (hrun.with_invariant (I := WellFormed) (fun _ _ _ => step_wellFormed)
    new_wellFormed).history (I := fun evs t => (∃ c, (lookup hd).run t = .ok c t) → Issued evs hd)
  refine hall ?_ ?_ hlive
  · intro hnew
    obtain ⟨_, _, hocc⟩ := lookup_ok_iff_occupied.mp hnew
    simp [Occupied, new] at hocc
  · rintro evs t ev t' hpast ⟨hwf, hstep⟩ hlive
    have heffect := Effect.of_step hwf hstep
    rcases heffect.lookup_back hlive with hbefore | hreply
    · obtain ⟨ev', hev', hreply⟩ := hpast hbefore
      exact ⟨ev', List.mem_append_left _ hev', hreply⟩
    · exact ⟨ev, List.mem_append_right _ (List.mem_singleton_self ev), hreply⟩

/-- The law of handles. A handle issued for a slot resolves later exactly when the slot
is occupied and was freed a multiple of `2 ^ 32` times since; so while no slot is freed
`2 ^ 32` times it resolves to the capability it was issued for until that capability is
dropped, taken or revoked, and to nothing from then on. -/
theorem handle_law {past rest : List TableEvent} {t₁ t₂ t₃ : CapabilityTable}
    {ev : TableEvent} (hpast : TableRun new past t₁) (hissue : TableStep t₁ ev t₂)
    (hhandle : ev.reply = .ok (.handle hd)) (hrest : TableRun t₂ rest t₃) :
    ((∃ c, (lookup hd).run t₃ = .ok c t₃) ↔
      t₃.Occupied hd.index ∧ freeCount hd.index rest % 2 ^ 32 = 0) ∧
    ((∀ i, freeCount i (past ++ ev :: rest) < 2 ^ 32) →
      ∃ c, issuedCapability t₁ ev.op = some c ∧
        ((∀ ev' ∈ rest, ¬ Releases hd ev') → (lookup hd).run t₃ = .ok c t₃) ∧
        ((∃ ev' ∈ rest, Releases hd ev') → (lookup hd).run t₃ = .err .invalidHandle t₃)) := by
  have hwf₁ := run_wellFormed hpast
  have hwf₂ := step_wellFormed hwf₁ hissue
  have heffect := Effect.of_step hwf₁ hissue
  rw [hhandle] at heffect
  obtain ⟨c, hissued, hlive⟩ := heffect.lookup_issued hwf₁
  obtain ⟨e₂, he₂, -⟩ := lookup_eq_ok_iff.mp hlive
  have hgen := generation_of_run (i := hd.index) hwf₂ hrest
  rw [he₂.generation] at hgen
  have hlaw := lookup_iff_of_freed he₂.bounded hgen
  refine ⟨hlaw, fun hfew => ⟨c, hissued, ?_, ?_⟩⟩
  · exact lookup_kept_of_run hwf₂ hrest hlive
  · rintro ⟨ev', hev', hrel⟩
    have hfree := frees_of_run hwf₂ hrest hev' hrel
    have hpos : 0 < freeCount hd.index rest :=
      List.countP_pos_iff.mpr ⟨ev', hev', by simpa using hfree⟩
    have hlt : freeCount hd.index rest < 2 ^ 32 := by
      have hbound := hfew hd.index
      rw [freeCount, List.countP_append, List.countP_cons] at hbound
      unfold freeCount
      omega
    rcases lookup_cases t₃ hd with ⟨e, -, hok⟩ | ⟨-, herr⟩
    · have hmod := (hlaw.mp ⟨_, hok⟩).2
      rw [Nat.mod_eq_of_lt hlt] at hmod
      omega
    · exact herr

omit [Build] in
/-- A root is inserted and dropped: its handle resolves in between and then no more. -/
theorem handle_law_drop : ∃ (t₂ t₃ : CapabilityTable) (cap : Capability) (rest : List TableEvent),
    @TableRun ⟨true⟩ t₂ rest t₃ ∧ (lookup ⟨0, 0⟩).run t₂ = .ok cap t₂ ∧
    (lookup ⟨0, 0⟩).run t₃ = .err .invalidHandle t₃ := by
  let _ : Build := ⟨true⟩
  let cap : Capability := ⟨⟨0xf⟩, .debugConsole⟩
  let t₂ := new.installed 0 (rootEntry cap)
  let t₃ := t₂.freed 0
  have hissue : TableStep new ⟨new, .insertRoot cap, .ok (.handle ⟨0, 0⟩), t₂⟩ t₂ :=
    ⟨rfl, rfl, rfl⟩
  have hdrop : TableStep t₂ ⟨t₂, .capDrop ⟨0, 0⟩, .ok .done, t₃⟩ t₃ :=
    ⟨rfl, rfl, by with_unfolding_all rfl⟩
  have hrest := Run.single hdrop
  obtain ⟨-, hfew⟩ := handle_law (.nil new) hissue rfl hrest
  obtain ⟨c, -, -, hstale⟩ := hfew fun i =>
    Nat.lt_of_le_of_lt List.countP_le_length (by simp)
  exact ⟨t₂, t₃, cap, _, hrest, rfl,
    hstale ⟨_, List.mem_singleton_self _, ⟨_, rfl⟩, rfl⟩⟩

end Tyrne.CapabilityTable
