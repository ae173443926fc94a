import Tyrne.Cap.Handles
import Tyrne.Ipc.Conservation

/-!
# Where capabilities come from

A capability is under a handle of some table or in flight in an endpoint slot. Every one
of them has come there by an unbroken chain of copies, derivations and transfers from a
capability that was inserted as a root, and no link of the chain adds a right.
-/

namespace Tyrne

open CapabilityTable IpcQueues

/-! ## Arrivals in one table -/

namespace CapabilityTable

variable {t t' : CapabilityTable} {hd : CapHandle} {c : Capability}

theorem Effect.of_ok [Build] {op : TableOp} {r : TableReply} (h : t.WellFormed)
    (hexec : op.exec.run t = .ok r t') : Effect t op (.ok r) t' := by
  obtain ⟨reply, u, hrun, heffect⟩ := Effect.of_exec h op
  have hreturned : Result.returned (.ok r) t' = Result.returned reply u := hexec.symm.trans hrun
  obtain ⟨rfl, rfl⟩ := Result.returned_inj.mp hreturned
  exact heffect

theorem not_lookup_of_vacant (hvacant : t.nodeAt hd.index = none) :
    (lookup hd).run t ≠ .ok c t := by
  intro hlookup
  obtain ⟨e, he, _⟩ := lookup_eq_ok_iff.mp hlookup
  have hentry := he.entry
  rw [entry_eq_none_iff.mpr hvacant] at hentry
  cases hentry

/-- What a handle names after an operation it named before, or the operation issued it. -/
theorem Effect.arrival {op : TableOp} {reply : Except CapError TableReply}
    (heffect : Effect t op reply t') (h : t.WellFormed)
    (hlookup : (lookup hd).run t' = .ok c t') :
    (lookup hd).run t = .ok c t ∨
      reply = .ok (.handle hd) ∧ issuedCapability t op = some c := by
  have hinstalled : ∀ {n : Index} {e : SlotEntry}, t' = t.installed n e →
      t.freeHead = some n → (lookup hd).run t = .ok c t ∨
        hd = ⟨n, (t.slots n).generation⟩ := by
    intro n e ht' hn
    subst ht'
    by_cases hindex : hd.index = n
    · obtain ⟨e', he', _⟩ := lookup_eq_ok_iff.mp hlookup
      have hgen := he'.generation
      rw [installed_generation] at hgen
      obtain ⟨index, generation⟩ := hd
      dsimp only at hindex hgen
      subst hindex
      exact Or.inr (by rw [hgen])
    · refine Or.inl ((lookup_congr installed_generation ?_).mp hlookup)
      rw [installed_nodeAt, if_neg hindex]
  have hissued : reply = .ok (.handle hd) → issuedCapability t op = some c := by
    intro hreply
    rw [hreply] at heffect
    obtain ⟨c', hc', hlookup'⟩ := heffect.lookup_issued h
    rw [hlookup] at hlookup'
    cases hlookup'
    exact hc'
  have hfreed : ∀ {hd' : CapHandle} {e : SlotEntry} {u : CapabilityTable},
      Unlinked t hd'.index e u → t' = u.freed hd'.index → (lookup hd).run t = .ok c t := by
    intro hd' e u hunlink ht'
    subst ht'
    by_cases hindex : hd.index = hd'.index
    · refine absurd hlookup (not_lookup_of_vacant ?_)
      rw [freed_nodeAt, if_pos hindex]
    · refine (lookup_congr ?_ ?_).mp hlookup
      · rw [freed_generation, if_neg hindex, hunlink.generation]
      · rw [freed_nodeAt, if_neg hindex, hunlink.nodeAt]
  cases heffect with
  | failed => exact Or.inl hlookup
  | insertRoot hn =>
    refine (hinstalled rfl hn).imp_right fun heq => ?_
    have hreply := congrArg (fun hd => Except.ok (ε := CapError) (TableReply.handle hd)) heq.symm
    exact ⟨hreply, hissued hreply⟩
  | capCopy _ hn =>
    refine (hinstalled rfl hn).imp_right fun heq => ?_
    have hreply := congrArg (fun hd => Except.ok (ε := CapError) (TableReply.handle hd)) heq.symm
    exact ⟨hreply, hissued hreply⟩
  | capDerive _ hn =>
    refine (hinstalled rfl hn).imp_right fun heq => ?_
    have hreply := congrArg (fun hd => Except.ok (ε := CapError) (TableReply.handle hd)) heq.symm
    exact ⟨hreply, hissued hreply⟩
  | @capRevoke src e ds _ _ hnodup hds =>
    refine Or.inl ?_
    by_cases hmem : hd.index ∈ ds
    · refine absurd hlookup (not_lookup_of_vacant ?_)
      rw [pruned_nodeAt, if_pos hmem]
    · refine (lookup_congr ?_ ?_).mp hlookup
      · rw [pruned_generation hnodup, if_neg hmem]
      · rw [pruned_nodeAt, if_neg hmem]
  | capDrop _ _ hunlink => exact Or.inl (hfreed hunlink rfl)
  | capTake _ _ hunlink => exact Or.inl (hfreed hunlink rfl)

end CapabilityTable

theorem named_eq_some {t : CapabilityTable} {hd : CapHandle} {c : Capability} :
    IpcSystem.named t (some hd) = some c ↔ (lookup hd).run t = .ok c t := by
  rcases lookup_cases t hd with ⟨e, _, hrun⟩ | ⟨_, hrun⟩
  · simp [IpcSystem.named, hrun]
  · simp [IpcSystem.named, hrun]

namespace IpcSystem

variable {τ : Type} [DecidableEq τ] {s s' : IpcSystem τ} {ev : Event τ}

/-! ## Places and links -/

/-- Where a capability can be: under a handle of a table, or in flight in a slot. -/
inductive Place (τ : Type)
  | table (who : τ) (hd : CapHandle)
  | flight (i : Index)

/-- What is at the place. -/
def content (s : IpcSystem τ) : Place τ → Option Capability
  | .table who hd => named (s.tables who) (some hd)
  | .flight i => (s.queues.states i).cap

/-- The event has made the capability `c'` at `p'` out of `c` at `p`, and `c` had the
right that this takes. -/
inductive Link (ev : Event τ) : Place τ → Capability → Place τ → Capability → Prop
  | copy {who : τ} {src hd : CapHandle} {newRights : CapRights} {c : Capability} :
      ev.op = .table who (.capCopy src newRights) → ev.reply = .ok (.table (.handle hd)) →
      c.rights.contains .duplicate → c.rights.contains newRights →
      Link ev (.table who src) c (.table who hd) ⟨newRights, c.object⟩
  | derive {who : τ} {src hd : CapHandle} {newRights : CapRights} {newObject : CapObject}
      {c : Capability} : ev.op = .table who (.capDerive src newRights newObject) →
      ev.reply = .ok (.table (.handle hd)) →
      c.rights.contains .derive → c.rights.contains newRights →
      Link ev (.table who src) c (.table who hd) ⟨newRights, newObject⟩
  | send {who : τ} {epCap xfer : CapHandle} {msg : Message} {outcome : SendOutcome}
      {h : EndpointHandle} {c : Capability} : ev.op = .send who epCap msg (some xfer) →
      ev.reply = .ok (.sent outcome) → target (ev.before.tables who) epCap = some h →
      c.rights.contains .transfer → Link ev (.table who xfer) c (.flight h.slot.index) c
  | recv {who : τ} {epCap hd : CapHandle} {msg : Message} {h : EndpointHandle}
      {c : Capability} : ev.op = .recv who epCap →
      ev.reply = .ok (.received (.received msg (some hd))) →
      target (ev.before.tables who) epCap = some h →
      Link ev (.flight h.slot.index) c (.table who hd) c

/-- The capability `c` is at `p` after the events, and it has come there from `root`,
which was inserted as a root capability: each event has made it, or has left it there. -/
inductive Provenance : List (Event τ) → Place τ → Capability → Capability → Prop
  | root {past : List (Event τ)} {ev : Event τ} {who : τ} {hd : CapHandle} {c : Capability} :
      ev.op = .table who (.insertRoot c) → ev.reply = .ok (.table (.handle hd)) →
      ev.after.content (.table who hd) = some c → Provenance (past ++ [ev]) (.table who hd) c c
  | link {past : List (Event τ)} {ev : Event τ} {p p' : Place τ} {c c' root : Capability} :
      Provenance past p c root → ev.before.content p = some c → Link ev p c p' c' →
      ev.after.content p' = some c' → Provenance (past ++ [ev]) p' c' root
  | stay {past : List (Event τ)} {ev : Event τ} {p : Place τ} {c root : Capability} :
      Provenance past p c root → ev.before.content p = some c → ev.after.content p = some c →
      Provenance (past ++ [ev]) p c root

omit [DecidableEq τ] in
/-- No link adds a right, and only a derivation names another object. -/
theorem Link.confined {p p' : Place τ} {c c' : Capability} (hlink : Link ev p c p' c') :
    c.rights.contains c'.rights ∧
      ((∀ who src newRights newObject, ev.op ≠ .table who (.capDerive src newRights newObject)) →
        c'.object = c.object) := by
  cases hlink with
  | copy _ _ _ hrights => exact ⟨hrights, fun _ => rfl⟩
  | derive hop _ _ hrights => exact ⟨hrights, fun hnot => absurd hop (hnot _ _ _ _)⟩
  | send => exact ⟨CapRights.contains_refl _, fun _ => rfl⟩
  | recv => exact ⟨CapRights.contains_refl _, fun _ => rfl⟩

omit [DecidableEq τ] in
/-- The rights at the end of a chain are among those of its root. -/
theorem Provenance.rights {past : List (Event τ)} {p : Place τ} {c root : Capability}
    (hprov : Provenance past p c root) : root.rights.contains c.rights := by
  induction hprov with
  | root => exact CapRights.contains_refl _
  | link _ _ hlink _ ih => exact CapRights.contains_trans ih hlink.confined.1
  | stay _ _ _ ih => exact ih

/-! ## One step -/

omit [DecidableEq τ] in
/-- What an endpoint carries under its handle is in flight in its slot. -/
theorem flight_of_held {h : EndpointHandle} {msg : Message} {c : Capability}
    (hheld : (s.queues.effective h).held = some (msg, some c)) :
    s.content (.flight h.slot.index) = some c := by
  unfold effective at hheld
  split at hheld
  · have hcap : (s.queues.states h.slot.index).cap = some c := by
      unfold EndpointState.cap
      rw [hheld]
      rfl
    exact hcap
  · cases hheld

omit [DecidableEq τ] in
theorem flight_put {h : EndpointHandle} {st : EndpointState} {i : Index} {c : Capability}
    (hcap : ((s.queues.put h st).states i).cap = some c) :
    (i ≠ h.slot.index ∧ s.content (.flight i) = some c) ∨
      (i = h.slot.index ∧ st.cap = some c) := by
  by_cases hi : i = h.slot.index
  · subst hi
    simp only [IpcQueues.put, Function.update_self] at hcap
    exact Or.inr ⟨rfl, hcap⟩
  · simp only [IpcQueues.put, Function.update_of_ne hi] at hcap
    exact Or.inl ⟨hi, hcap⟩

omit [DecidableEq τ] in
/-- A refused call brings nothing into flight. -/
theorem flight_refused {q : IpcQueues} {i : Index} {c : Capability}
    (hq : Refused s.epArena s.queues q) (hcap : (q.states i).cap = some c) :
    s.content (.flight i) = some c := by
  cases hq with
  | early => exact hcap
  | @settled h hlive =>
    rcases flight_put hcap with ⟨_, hsame⟩ | ⟨rfl, hstate⟩
    · exact hsame
    · unfold effective at hstate
      split at hstate
      · exact hstate
      · cases hstate

/-- What is at a place after a step was there before, or the step has brought it there: as
a root, or by a link from another place. -/
def Arrives (ev : Event τ) (p : Place τ) (c : Capability) : Prop :=
  ev.before.content p = some c ∨
  (∃ who hd, p = .table who hd ∧ ev.op = .table who (.insertRoot c) ∧
    ev.reply = .ok (.table (.handle hd))) ∨
  ∃ p₀ c₀, ev.before.content p₀ = some c₀ ∧ Link ev p₀ c₀ p c

variable [Build]

/-- A capability that a send takes along is under its transfer handle, with the right to
be transferred. -/
theorem taken_transferable {t t' : CapabilityTable} {xfer : CapHandle} {c : Capability}
    (hwf : t.WellFormed) (hrun : (capTake xfer).run t = .ok c t')
    (hxfer : Transferable t (some xfer)) :
    named t (some xfer) = some c ∧ c.rights.contains .transfer := by
  have hlookup := (capTake_moves hwf hrun).2.2.1
  obtain ⟨c', hlookup', hright⟩ := hxfer xfer rfl
  rw [hlookup] at hlookup'
  cases hlookup'
  exact ⟨named_eq_some.mpr hlookup, hright⟩

/-- The table of a sender names nothing new. -/
theorem named_of_taken_table {t t' : CapabilityTable} {transfer : Option CapHandle}
    {owned : Option Capability} {hd : CapHandle} {c : Capability} (hwf : t.WellFormed)
    (htaken : Taken t transfer owned t') (hnamed : named t' (some hd) = some c) :
    named t (some hd) = some c := by
  cases htaken with
  | nothing => exact hnamed
  | @cap xfer c' t' hrun =>
    have htake : (TableOp.capTake xfer).exec.run t = .ok (.taken c') t' := Prog.bind_ok hrun
    have heffect := CapabilityTable.Effect.of_ok hwf htake
    rcases heffect.arrival hwf (named_eq_some.mp hnamed) with hold | ⟨hreply, _⟩
    · exact named_eq_some.mpr hold
    · cases hreply

omit [Build] in
/-- The table of a receiver names what it did, and the capability it received. -/
theorem named_of_installed_table {t t' : CapabilityTable} {cap : Option Capability}
    {xfer : Option CapHandle} {hd : CapHandle} {c : Capability} (hwf : t.WellFormed)
    (hinst : Installed t cap xfer t') (hnamed : named t' (some hd) = some c) :
    named t (some hd) = some c ∨ xfer = some hd ∧ cap = some c := by
  cases hinst with
  | nothing => exact Or.inl hnamed
  | @cap c' xfer t' hrun =>
    let _ : Build := debugBuild
    have hinsert : (TableOp.insertRoot c').exec.run t = .ok (.handle xfer) t' :=
      Prog.bind_ok hrun
    have heffect := CapabilityTable.Effect.of_ok hwf hinsert
    rcases heffect.arrival hwf (named_eq_some.mp hnamed) with hold | ⟨hreply, hissued⟩
    · exact Or.inl (named_eq_some.mpr hold)
    · cases hreply
      exact Or.inr ⟨rfl, hissued⟩

omit [Build] in
/-- A table operation brings in a root, a copy or a derivation. -/
theorem arrives_of_table {who : τ} {op : TableOp} {r : TableReply} {t' : CapabilityTable}
    (hop : ev.op = .table who op) (hreply : ev.reply = .ok (.table r))
    (hafter : ev.after = ev.before.setTable who t')
    (heffect : CapabilityTable.Effect (ev.before.tables who) op (.ok r) t')
    (hwf : (ev.before.tables who).WellFormed) {p : Place τ} {c : Capability}
    (hcontent : ev.after.content p = some c) : Arrives ev p c := by
  rw [hafter] at hcontent
  cases p with
  | flight i => exact Or.inl hcontent
  | table w hd =>
    by_cases hw : w = who
    · subst hw
      have hnamed : named t' (some hd) = some c := by
        simpa [content, setTable] using hcontent
      rcases heffect.arrival hwf (named_eq_some.mp hnamed) with hold | ⟨hissue, hissued⟩
      · exact Or.inl (named_eq_some.mpr hold)
      · cases hissue
        cases heffect with
        | insertRoot hn =>
          cases hissued
          exact Or.inr (Or.inl ⟨w, _, rfl, hop, hreply⟩)
        | @capCopy src newRights e n he hn hdup hrights =>
          have hc : issuedCapability (ev.before.tables w) (.capCopy src newRights) =
              some ⟨newRights, e.capability.object⟩ := by
            simp only [issuedCapability, lookup_ok he]
          rw [hc] at hissued
          cases hissued
          exact Or.inr (Or.inr ⟨.table w src, e.capability, named_eq_some.mpr (lookup_ok he),
            .copy hop hreply hdup hrights⟩)
        | @capDerive src newRights newObject e n he hn hder hrights hdepth =>
          cases hissued
          exact Or.inr (Or.inr ⟨.table w src, e.capability, named_eq_some.mpr (lookup_ok he),
            .derive hop hreply hder hrights⟩)
    · refine Or.inl ?_
      simpa [content, setTable, hw] using hcontent

/-- A send that put its message in the endpoint brings its capability into flight. -/
theorem arrives_of_send {who : τ} {epCap : CapHandle} {msg : Message}
    {transfer : Option CapHandle} {outcome : SendOutcome} {h : EndpointHandle}
    {st : EndpointState} {owned : Option Capability} {t' : CapabilityTable}
    (hop : ev.op = .send who epCap msg transfer) (hreply : ev.reply = .ok (.sent outcome))
    (hafter : ev.after = ev.before.endCall who ⟨ev.before.epArena, ev.before.queues.put h st, t'⟩)
    (htarget : target (ev.before.tables who) epCap = some h) (hcap : st.cap = owned)
    (hxfer : Transferable (ev.before.tables who) transfer)
    (htaken : Taken (ev.before.tables who) transfer owned t')
    (hwf : (ev.before.tables who).WellFormed) {p : Place τ} {c : Capability}
    (hcontent : ev.after.content p = some c) : Arrives ev p c := by
  rw [hafter] at hcontent
  cases p with
  | table w hd =>
    refine Or.inl ?_
    by_cases hw : w = who
    · subst hw
      have hnamed : named t' (some hd) = some c := by
        simpa [content, endCall, setTable] using hcontent
      exact named_of_taken_table hwf htaken hnamed
    · simpa [content, endCall, setTable, hw] using hcontent
  | flight i =>
    rcases flight_put hcontent with ⟨_, hsame⟩ | ⟨rfl, hstate⟩
    · exact Or.inl hsame
    · rw [hcap] at hstate
      subst hstate
      cases htaken with
      | cap hrun =>
        obtain ⟨hnamed, hright⟩ := taken_transferable hwf hrun hxfer
        exact Or.inr (Or.inr ⟨.table who _, c, hnamed, .send hop hreply htarget hright⟩)

omit [Build] in
/-- A receive brings what was in flight under the handle it returns. -/
theorem arrives_of_recv {who : τ} {epCap : CapHandle} {msg : Message} {h : EndpointHandle}
    {cap : Option Capability} {xfer : Option CapHandle} {t' : CapabilityTable}
    (hop : ev.op = .recv who epCap)
    (hreply : ev.reply = .ok (.received (.received msg xfer)))
    (hafter : ev.after =
      ev.before.endCall who ⟨ev.before.epArena, ev.before.queues.put h .idle, t'⟩)
    (htarget : target (ev.before.tables who) epCap = some h)
    (hheld : (ev.before.queues.effective h).held = some (msg, cap))
    (hinst : Installed (ev.before.tables who) cap xfer t')
    (hwf : (ev.before.tables who).WellFormed) {p : Place τ} {c : Capability}
    (hcontent : ev.after.content p = some c) : Arrives ev p c := by
  rw [hafter] at hcontent
  cases p with
  | flight i =>
    rcases flight_put hcontent with ⟨_, hsame⟩ | ⟨_, hstate⟩
    · exact Or.inl hsame
    · cases hstate
  | table w hd =>
    by_cases hw : w = who
    · subst hw
      have hnamed : named t' (some hd) = some c := by
        simpa [content, endCall, setTable] using hcontent
      rcases named_of_installed_table hwf hinst hnamed with hold | ⟨hxfer, hcap⟩
      · exact Or.inl hold
      · subst hxfer
        subst hcap
        exact Or.inr (Or.inr ⟨_, c, flight_of_held hheld, .recv hop hreply htarget⟩)
    · refine Or.inl ?_
      simpa [content, endCall, setTable, hw] using hcontent

omit [Build] in
/-- A call that only empties or settles its endpoint brings nothing anywhere. -/
theorem arrives_of_still {who : τ} {q : IpcQueues} {c : Capability} {p : Place τ}
    (hflight : ∀ i, (q.states i).cap = some c → ev.before.content (.flight i) = some c)
    (hafter : ev.after = ev.before.endCall who { ev.before.call who with queues := q })
    (hcontent : ev.after.content p = some c) : Arrives ev p c := by
  rw [hafter] at hcontent
  cases p with
  | flight i => exact Or.inl (hflight i hcontent)
  | table w hd =>
    refine Or.inl ?_
    by_cases hw : w = who
    · subst hw
      simpa [content, endCall, setTable, call] using hcontent
    · simpa [content, endCall, setTable, hw] using hcontent

theorem Effect.arrives (heffect : Effect ev.before ev.op ev.reply ev.after)
    (hwf : ∀ who, (ev.before.tables who).WellFormed) {p : Place τ} {c : Capability}
    (hcontent : ev.after.content p = some c) : Arrives ev p c := by
  have hput : ∀ {h : EndpointHandle} {st : EndpointState}, st.cap = none → ∀ i,
      ((ev.before.queues.put h st).states i).cap = some c →
      ev.before.content (.flight i) = some c := by
    intro h st hst i hcap
    rcases flight_put hcap with ⟨_, hsame⟩ | ⟨_, hstate⟩
    · exact hsame
    · rw [hst] at hstate
      cases hstate
  generalize hop : ev.op = op at heffect
  generalize hreply : ev.reply = reply at heffect
  generalize hafter : ev.after = after at heffect
  cases heffect with
  | failed hq =>
    rw [hafter] at hcontent
    cases p with
    | table w hd => exact Or.inl hcontent
    | flight i => exact Or.inl (flight_refused hq hcontent)
  | table heffect => exact arrives_of_table hop hreply hafter heffect (hwf _) hcontent
  | createEndpoint => exact Or.inl (by rwa [hafter] at hcontent)
  | destroyEndpoint => exact Or.inl (by rwa [hafter] at hcontent)
  | createNotification => exact Or.inl (by rwa [hafter] at hcontent)
  | destroyNotification => exact Or.inl (by rwa [hafter] at hcontent)
  | notify => exact Or.inl (by rwa [hafter] at hcontent)
  | send hend =>
    cases hend with
    | delivered htarget _ _ hxfer htaken =>
      exact arrives_of_send hop hreply hafter (target_of_targets htarget) rfl hxfer htaken
        (hwf _) hcontent
    | enqueued htarget _ _ hxfer htaken =>
      exact arrives_of_send hop hreply hafter (target_of_targets htarget) rfl hxfer htaken
        (hwf _) hcontent
  | recv hend =>
    cases hend with
    | received htarget _ hheld hinst =>
      exact arrives_of_recv hop hreply hafter (target_of_targets htarget) hheld hinst (hwf _)
        hcontent
    | registered => exact arrives_of_still (hput rfl) hafter hcontent
  | cancelRecv hend =>
    cases hend with
    | cancelled => exact arrives_of_still (hput rfl) hafter hcontent
    | nothing _ _ hq => exact arrives_of_still (fun i => flight_refused hq) hafter hcontent

/-! ## Whole runs -/

/-- Every capability that is live in a table or in flight has come from an inserted root
by an unbroken chain, and has no right that the root had not; no link of a chain adds a
right, and only derivations change the object. -/
theorem provenance_of_run {evs : List (Event τ)} (hrun : Run Step boot evs s) :
    (∀ p c, s.content p = some c → ∃ root, Provenance evs p c root ∧
      root.rights.contains c.rights) ∧
    ∀ (ev : Event τ) p c p' c', Link ev p c p' c' → c.rights.contains c'.rights ∧
      ((∀ who src newRights newObject, ev.op ≠ .table who (.capDerive src newRights newObject)) →
        c'.object = c.object) := by
  refine ⟨?_, fun ev p c p' c' hlink => hlink.confined⟩
  have hchain : (∀ who, (s.tables who).WellFormed) ∧
      ∀ p c, s.content p = some c → ∃ root, Provenance evs p c root := by
    refine hrun.history (I := fun evs s => (∀ who, (s.tables who).WellFormed) ∧
      ∀ p c, s.content p = some c → ∃ root, Provenance evs p c root)
      ⟨fun _ => new_wellFormed, fun p c hcontent => ?_⟩ fun past s ev s' hpast hstep => ?_
    · cases p with
      | table who hd =>
        obtain ⟨e, he, _⟩ := lookup_eq_ok_iff.mp (named_eq_some.mp hcontent)
        cases he.entry
      | flight i => cases hcontent
    · obtain ⟨hwf, hbefore⟩ := hpast
      have heffect := Effect.of_step hwf hstep
      obtain ⟨rfl, rfl, -⟩ := hstep
      refine ⟨heffect.wellFormed hwf, fun p c hcontent => ?_⟩
      rcases heffect.arrives hwf hcontent with hold | ⟨who, hd, rfl, hop, hreply⟩ |
        ⟨p₀, c₀, hfrom, hlink⟩
      · obtain ⟨root, hprov⟩ := hbefore p c hold
        exact ⟨root, .stay hprov hold hcontent⟩
      · exact ⟨c, .root hop hreply hcontent⟩
      · obtain ⟨root, hprov⟩ := hbefore p₀ c₀ hfrom
        exact ⟨root, .link hprov hfrom hlink hcontent⟩
  intro p c hcontent
  obtain ⟨root, hprov⟩ := hchain.2 p c hcontent
  exact ⟨root, hprov, hprov.rights⟩

omit [DecidableEq τ] [Build] in
/-- The capability that the receiver got has come from a root of the sender. -/
theorem provenance_of_run_transfer : ∃ (evs : List (Event Bool)) (root : Capability),
    @Run _ _ (@Step Bool _ ⟨true⟩) boot evs collected ∧
    Provenance evs (.table true ⟨1, 0⟩) ⟨.transfer, .debugConsole⟩ root ∧
    root.rights.contains .transfer := by
  obtain ⟨setup, hsetup, _⟩ := giverAndReceiver_run
  obtain ⟨evs, hrun, _⟩ := collected_run
  let _ : Build := ⟨true⟩
  have hall := hsetup.append hrun
  have hcontent : collected.content (.table true ⟨1, 0⟩) = some ⟨.transfer, .debugConsole⟩ := by
    with_unfolding_all rfl
  obtain ⟨root, hprov, hrights⟩ := (provenance_of_run hall).1 _ _ hcontent
  exact ⟨setup ++ evs, root, hall, hprov, hrights⟩

end IpcSystem

end Tyrne
