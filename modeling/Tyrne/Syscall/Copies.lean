import Tyrne.Syscall.UserAccess

/-!
# What the user copies read

For an address space whose translation only reads memory and maps frames inside the
direct map, the window check, the probe and the copy from user memory are decided by
predicates on the range, and the copy yields the bytes that the translation shows there.
-/

namespace Tyrne

/-! ## Pages -/

theorem pageBase_le (va : ℕ) : pageBase va ≤ va := Nat.sub_le ..

theorem pageBase_add_mod (va : ℕ) : pageBase va + va % pageSize = va := by
  unfold pageBase pageSize
  omega

/-- An address in the page at the aligned address `page`. -/
theorem pageBase_eq {page va : ℕ} (haligned : page % pageSize = 0) (hle : page ≤ va)
    (hlt : va < page + pageSize) : pageBase va = page := by
  unfold pageBase pageSize at *
  omega

theorem pageBase_mod (va : ℕ) : pageBase va % pageSize = 0 := by
  unfold pageBase pageSize
  omega

/-- Moving on inside the page. -/
theorem pageBase_add {va k : ℕ} (hk : va % pageSize + k < pageSize) :
    pageBase (va + k) = pageBase va ∧ (va + k) % pageSize = va % pageSize + k := by
  unfold pageBase pageSize at *
  omega

namespace UserAccessWindow

/-- The range `[ptr, ptr + len)` does not wrap and lies in a window that does not either;
an empty range always passes. -/
def Contains (window : UserAccessWindow) (ptr len : ℕ) : Prop :=
  len = 0 ∨ ptr + len < 2 ^ 64 ∧ window.base + window.len < 2 ^ 64 ∧
    window.base ≤ ptr ∧ ptr + len ≤ window.base + window.len

variable {window : UserAccessWindow} {ptr len : ℕ}

theorem Contains.lt (hin : window.Contains ptr len) (hlen : 0 < len) : ptr + len < 2 ^ 64 := by
  rcases hin with hzero | ⟨hlt, _⟩
  · omega
  · exact hlt

/-- A part of a range that passes, passes. -/
theorem Contains.part (hin : window.Contains ptr len) {off n : ℕ} (hle : off + n ≤ len) :
    window.Contains (ptr + off) n := by
  unfold Contains at *
  omega

theorem validate_ok {σ : Type} (hin : window.Contains ptr len) (s : σ) :
    (window.validate ptr len).run s = .ok () s := by
  unfold validate
  split
  · rfl
  · next hlen =>
    have hrange := hin.resolve_left hlen
    have hstop : checkedAdd ptr len = some (ptr + len) := if_pos hrange.1
    have hend : checkedAdd window.base window.len = some (window.base + window.len) :=
      if_pos hrange.2.1
    rw [hstop, hend]
    exact congrFun (congrArg Prog.run (Prog.require_pos hrange.2.2 _)) s

theorem validate_err {σ : Type} (hout : ¬ window.Contains ptr len) (s : σ) :
    (window.validate ptr len).run s = .err .faultAddress s := by
  unfold validate
  unfold Contains at hout
  split
  · next hlen => exact absurd (Or.inl hlen) hout
  · unfold checkedAdd
    split
    · split
      · have hrange : ¬ (ptr ≥ window.base ∧ ptr + len ≤ window.base + window.len) := by omega
        exact congrFun (congrArg Prog.run (Prog.require_neg hrange _)) s
      · rfl
    · rfl

end UserAccessWindow

section

variable {AS : Type} [Mmu AS]

/-- Translation in `taskAs` at the memory `m`: it changes nothing, does not panic, and
the frames it finds lie in the direct map. -/
def Translates (taskAs : AS) (m : Memory) : Prop :=
  ∀ va, (∃ frame flags, (Mmu.translate taskAs va).run m = .ok (frame, flags) m ∧
    frame.asUsize < directMapEnd) ∨ ∃ err, (Mmu.translate taskAs va).run m = .err err m

/-- The frame and the flags of the page at `page`, if it is mapped. -/
def userPage (taskAs : AS) (m : Memory) (page : ℕ) : Option (PhysFrame × MappingFlags) :=
  match (Mmu.translate taskAs ⟨page⟩).run m with
  | .ok entry _ => some entry
  | _ => none

/-- The byte that user address `va` shows. -/
def userByte (taskAs : AS) (m : Memory) (va : ℕ) : BitVec 8 :=
  match userPage taskAs m (pageBase va) with
  | some (frame, _) => m (frame.asUsize + va % pageSize)
  | none => 0

def userBytes (taskAs : AS) (m : Memory) (ptr len : ℕ) : List (BitVec 8) :=
  (List.range len).map fun j => userByte taskAs m (ptr + j)

/-- The page of `va` is mapped for user code, and writable if `requireWrite`. -/
def Grants (taskAs : AS) (m : Memory) (requireWrite : Bool) (va : ℕ) : Prop :=
  ∃ frame flags, userPage taskAs m (pageBase va) = some (frame, flags) ∧
    flags.contains .user = true ∧ (requireWrite = true → flags.contains .write = true)

/-- Every address of `[ptr, ptr + len)` is granted. -/
def GrantsRange (taskAs : AS) (m : Memory) (requireWrite : Bool) (ptr len : ℕ) : Prop :=
  ∀ j < len, Grants taskAs m requireWrite (ptr + j)

variable {taskAs : AS} {m : Memory} {requireWrite : Bool} {ptr len : ℕ}

@[simp] theorem length_userBytes : (userBytes taskAs m ptr len).length = len := by
  simp [userBytes]

theorem userBytes_add (n : ℕ) : userBytes taskAs m ptr (len + n) =
    userBytes taskAs m ptr len ++ userBytes taskAs m (ptr + len) n := by
  unfold userBytes
  rw [List.range_add, List.map_append, List.map_map]
  congr 1
  apply List.map_congr_left
  intro j _
  rw [Function.comp_apply, Nat.add_assoc]

theorem GrantsRange.part (hgrants : GrantsRange taskAs m requireWrite ptr len) {off n : ℕ}
    (hle : off + n ≤ len) : GrantsRange taskAs m requireWrite (ptr + off) n := by
  intro j hj
  rw [Nat.add_assoc]
  exact hgrants (off + j) (by omega)

/-! ## Translation -/

theorem translatePage_ok {page : ℕ} {frame : PhysFrame} {flags : MappingFlags}
    (htranslates : Translates taskAs m) (hpage : userPage taskAs m page = some (frame, flags)) :
    (translatePage taskAs page).run m = .ok (frame, flags) m ∧ frame.asUsize < directMapEnd := by
  unfold userPage at hpage
  rcases htranslates ⟨page⟩ with ⟨frame', flags', hrun, hlt⟩ | ⟨err, hrun⟩
  · rw [hrun] at hpage
    cases hpage
    exact ⟨Prog.zoom_ok hrun, hlt⟩
  · rw [hrun] at hpage
    cases hpage

theorem translatePage_err {page : ℕ} (htranslates : Translates taskAs m)
    (hpage : userPage taskAs m page = none) :
    (translatePage taskAs page).run m = .err .faultAddress m := by
  unfold userPage at hpage
  rcases htranslates ⟨page⟩ with ⟨frame', flags', hrun, hlt⟩ | ⟨err, hrun⟩
  · rw [hrun] at hpage
    cases hpage
  · exact Prog.zoom_err hrun

/-- A page of the probe is left to the next one, or refused. -/
theorem probePage_run (htranslates : Translates taskAs m) {page : ℕ}
    (haligned : page % pageSize = 0) :
    (Grants taskAs m requireWrite page ∧
      (probePage taskAs requireWrite page).run m = .ok (saturatingAdd page pageSize) m) ∨
    (¬ Grants taskAs m requireWrite page ∧
      (probePage taskAs requireWrite page).run m = .err .faultAddress m) := by
  have hbase : pageBase page = page := pageBase_eq haligned le_rfl (by unfold pageSize; omega)
  unfold probePage Grants
  rw [hbase]
  cases hpage : userPage taskAs m page with
  | none =>
    refine Or.inr ⟨?_, Prog.bind_err (translatePage_err htranslates hpage)⟩
    intro hgrants
    obtain ⟨frame, flags, hcon, _⟩ := hgrants
    cases hcon
  | some entry =>
    obtain ⟨frame, flags⟩ := entry
    have htranslate := (translatePage_ok htranslates hpage).1
    rw [Prog.bind_ok htranslate]
    by_cases huser : flags.contains .user = true
    · by_cases hwrite : requireWrite = true ∧ ¬ flags.contains .write = true
      · refine Or.inr ⟨?_, ?_⟩
        · intro hgrants
          obtain ⟨_, _, hsome, _, hcon⟩ := hgrants
          cases hsome
          exact hwrite.2 (hcon hwrite.1)
        · dsimp only
          rw [Prog.require_pos huser, Prog.pure_bind_run, Prog.require_neg (not_not.mpr hwrite)]
          rfl
      · refine Or.inl ⟨⟨frame, flags, rfl, huser, fun hreq => ?_⟩, ?_⟩
        · by_contra hcon
          exact hwrite ⟨hreq, hcon⟩
        · dsimp only
          rw [Prog.require_pos huser, Prog.pure_bind_run, Prog.require_pos hwrite]
          rfl
    · refine Or.inr ⟨?_, ?_⟩
      · intro hgrants
        obtain ⟨_, _, hsome, hcon, _⟩ := hgrants
        cases hsome
        exact huser hcon
      · dsimp only
        rw [Prog.require_neg huser]
        rfl

/-! ## The probe -/

/-- Pages left to probe before `stop`. -/
def pagesLeft (stop page : ℕ) : ℕ := (stop - page + 4095) / 4096

theorem pagesLeft_lt {stop page page' : ℕ} (hlt : page < stop)
    (hnext : page' = page + pageSize ∨ stop ≤ page') :
    pagesLeft stop page' < pagesLeft stop page := by
  unfold pagesLeft
  unfold pageSize at hnext
  omega

theorem pagesLeft_pageBase {ptr len : ℕ} (hlen : 0 < len) :
    pagesLeft (ptr + len) (pageBase ptr) < len + 1 := by
  unfold pagesLeft pageBase pageSize
  omega

/-- A range that is all granted passes the probe; any other is refused. -/
theorem probeUserPages_run (htranslates : Translates taskAs m) (hlen : 0 < len)
    (hlt : ptr + len < 2 ^ 64) :
    (GrantsRange taskAs m requireWrite ptr len ∧
      (probeUserPages taskAs ptr len requireWrite).run m = .ok () m) ∨
    (¬ GrantsRange taskAs m requireWrite ptr len ∧
      (probeUserPages taskAs ptr len requireWrite).run m = .err .faultAddress m) := by
  have hstop : checkedAdd ptr len = some (ptr + len) := if_pos hlt
  unfold probeUserPages
  rw [hstop, Prog.okOr_some]
  -- what the pages before `page` hold is known; `page` is one of the range or past its end
  let I : ℕ → Memory → Prop := fun page s => s = m ∧ pageBase ptr ≤ page ∧
    (page % pageSize = 0 ∨ ptr + len ≤ page) ∧
    ∀ j < len, ptr + j < page → Grants taskAs m requireWrite (ptr + j)
  let E : SyscallError → Memory → Prop := fun err s => s = m ∧ err = .faultAddress ∧
    ¬ GrantsRange taskAs m requireWrite ptr len
  have hstep : ∀ page s, I page s → page < ptr + len →
      (∃ page' s', (probePage taskAs requireWrite page).run s = .ok page' s' ∧
        pagesLeft (ptr + len) page' < pagesLeft (ptr + len) page ∧ I page' s') ∨
      ∃ err s', (probePage taskAs requireWrite page).run s = .err err s' ∧ E err s' := by
    intro page s hI hlt'
    obtain ⟨rfl, hfrom, haligned, hbefore⟩ := hI
    have haligned : page % pageSize = 0 := haligned.resolve_right (by omega)
    have hbase : ∀ va, page ≤ va → va < page + pageSize → pageBase va = page :=
      fun va hle hva => pageBase_eq haligned hle hva
    have hself := hbase page le_rfl (by unfold pageSize; omega)
    rcases probePage_run htranslates haligned with ⟨hgrants, hrun⟩ | ⟨hrefused, hrun⟩
    · have hle := saturatingAdd_le page pageSize
      have hnext := saturatingAdd_cases page pageSize
      generalize saturatingAdd page pageSize = page' at hrun hle hnext
      have hpage' : page' = page + pageSize ∨ ptr + len ≤ page' :=
        hnext.imp_right fun hlast => hlast _ hlt
      refine Or.inl ⟨_, _, hrun, pagesLeft_lt hlt' hpage', rfl, ?_, ?_, ?_⟩
      · omega
      · refine hpage'.imp_left fun hnext => ?_
        rw [hnext, Nat.add_mod_right]
        exact haligned
      · intro j hj hnext
        by_cases hold : ptr + j < page
        · exact hbefore j hj hold
        · have hin : ptr + j < page + pageSize := by omega
          have hsame := hbase (ptr + j) (by omega) hin
          unfold Grants at *
          rw [hsame, ← hself]
          exact hgrants
    · refine Or.inr ⟨_, _, hrun, rfl, rfl, ?_⟩
      intro hall
      apply hrefused
      by_cases hfirst : page ≤ ptr
      · have hpage : pageBase ptr = page := by
          apply pageBase_eq haligned hfirst
          have hsplit := pageBase_add_mod ptr
          have hmod : ptr % pageSize < pageSize := Nat.mod_lt _ (by unfold pageSize; omega)
          omega
        have hzero := hall 0 hlen
        unfold Grants at *
        rw [hself, ← hpage]
        exact hzero
      · have hj := hall (page - ptr) (by omega)
        rwa [show ptr + (page - ptr) = page by omega] at hj
  have hstart : I (pageBase ptr) m := by
    refine ⟨rfl, le_rfl, Or.inl (pageBase_mod ptr), fun j hj hcon => ?_⟩
    have hle := pageBase_le ptr
    omega
  rcases Prog.loop_cases hstep hstart (pagesLeft_pageBase hlen) with
    ⟨page, s, hrun, hI, hend⟩ | ⟨err, s, hrun, hE⟩
  · obtain ⟨rfl, _, _, hbefore⟩ := hI
    refine Or.inl ⟨fun j hj => hbefore j hj (by omega), ?_⟩
    rw [Prog.pure_bind_run, Prog.bind_ok hrun]
    rfl
  · obtain ⟨rfl, rfl, hnot⟩ := hE
    refine Or.inr ⟨hnot, ?_⟩
    rw [Prog.pure_bind_run, Prog.bind_err hrun]

/-! ## The copy from user memory -/

/-- What one page of the copy reads is what the user sees there. -/
theorem readBytes_eq {cur n : ℕ} {frame : PhysFrame} {flags : MappingFlags}
    (hpage : userPage taskAs m (pageBase cur) = some (frame, flags))
    (hn : cur % pageSize + n ≤ pageSize) :
    m.readBytes (frame.asUsize + cur % pageSize) n = userBytes taskAs m cur n := by
  unfold Memory.readBytes userBytes
  apply List.map_congr_left
  intro j hj
  have hin := List.mem_range.mp hj
  have hsame := pageBase_add (show cur % pageSize + j < pageSize by omega)
  unfold userByte
  rw [hsame.1, hsame.2, hpage, Nat.add_assoc]

/-- The part of a buffer after the bytes that are already in is overwritten next. -/
theorem splice_append (written rest bytes : List (BitVec 8)) :
    splice (written ++ rest) written.length bytes =
      written ++ bytes ++ rest.drop bytes.length := by
  unfold splice
  rw [List.take_left, List.drop_append]
  simp

/-- The arithmetic of a copy step: the part of the range in the page of `cur`. It ends with the
page or with the range. -/
theorem pageRun {ptr stop cur : ℕ} (hptr : ptr ≤ cur) (hcur : cur < stop)
    (hstop : stop < 2 ^ 64) :
    ∃ n, 0 < n ∧ cur + n ≤ stop ∧ cur % pageSize + n ≤ pageSize ∧
      ((cur + n) % pageSize = 0 ∨ cur + n = stop) ∧
      wrappingSub cur (pageBase cur) = cur % pageSize ∧
      min (wrappingSub pageSize (cur % pageSize)) (wrappingSub stop cur) = n ∧
      wrappingSub cur ptr = cur - ptr ∧ checkedAdd cur n = some (cur + n) := by
  have hlt : cur % pageSize < pageSize := Nat.mod_lt _ (by unfold pageSize; omega)
  have hin : wrappingSub cur (pageBase cur) = cur % pageSize := by
    rw [wrappingSub_eq (pageBase_le cur) (by omega)]
    have hsplit := pageBase_add_mod cur
    omega
  have hrest : wrappingSub pageSize (cur % pageSize) = pageSize - cur % pageSize :=
    wrappingSub_eq hlt.le (by unfold pageSize; omega)
  have hleft : wrappingSub stop cur = stop - cur := wrappingSub_eq hcur.le hstop
  have hoff : wrappingSub cur ptr = cur - ptr := wrappingSub_eq hptr (by omega)
  rw [hrest, hleft]
  have hnext : checkedAdd cur (min (pageSize - cur % pageSize) (stop - cur)) =
      some (cur + min (pageSize - cur % pageSize) (stop - cur)) := if_pos (by omega)
  have hends : (cur + min (pageSize - cur % pageSize) (stop - cur)) % pageSize = 0 ∨
      cur + min (pageSize - cur % pageSize) (stop - cur) = stop := by
    unfold pageSize at *
    omega
  exact ⟨_, by omega, by omega, by omega, hends, hin, rfl, hoff, hnext⟩

theorem copyFromPage_run (htranslates : Translates taskAs m) {stop cur : ℕ}
    (buffer : List (BitVec 8)) (hgrants : Grants taskAs m false cur) (hptr : ptr ≤ cur)
    (hcur : cur < stop) (hstop : stop < 2 ^ 64) :
    ∃ n, 0 < n ∧ cur + n ≤ stop ∧
      (copyFromPage taskAs ptr stop cur).run ⟨m, buffer⟩ =
        .ok (cur + n) ⟨m, splice buffer (cur - ptr) (userBytes taskAs m cur n)⟩ := by
  obtain ⟨frame, flags, hpage, huser, _⟩ := hgrants
  obtain ⟨htranslate, hframe⟩ := translatePage_ok htranslates hpage
  obtain ⟨n, hpos, hle, hin, _, hinPage, hrun, hoff, hnext⟩ := pageRun hptr hcur hstop
  have hread := readBytes_eq hpage hin
  refine ⟨n, hpos, hle, ?_⟩
  unfold copyFromPage
  dsimp only
  rw [hinPage, hrun, hoff]
  have hzoom : (onMemory (translatePage taskAs (pageBase cur))).run ⟨m, buffer⟩ =
      .ok (frame, flags) (⟨m, buffer⟩ : UserCopy) := Prog.zoom_ok htranslate
  rw [Prog.bind_ok hzoom]
  dsimp only
  rw [Prog.require_pos huser, Prog.pure_bind_run, physToKernelVa_pos hframe,
    Prog.pure_bind_run, Prog.modify_bind_run]
  dsimp only
  rw [physOf_directMap hframe, hread, hnext]
  rfl

theorem splice_userBytes {buffer : List (BitVec 8)} (off n : ℕ) :
    splice (userBytes taskAs m ptr off ++ buffer.drop off) off
        (userBytes taskAs m (ptr + off) n) =
      userBytes taskAs m ptr (off + n) ++ buffer.drop (off + n) := by
  have hsplice := splice_append (userBytes taskAs m ptr off) (buffer.drop off)
    (userBytes taskAs m (ptr + off) n)
  rw [length_userBytes, length_userBytes, List.drop_drop] at hsplice
  rw [hsplice, userBytes_add]

/-- The copy loop on a range that is all granted. -/
theorem copyFromPages_run (htranslates : Translates taskAs m) {buffer : List (BitVec 8)}
    (hgrants : GrantsRange taskAs m false ptr buffer.length)
    (hlt : ptr + buffer.length < 2 ^ 64) :
    ∃ cur, (Prog.loop (· < ptr + buffer.length) (copyFromPage taskAs ptr (ptr + buffer.length))
        (buffer.length + 1) ptr).run ⟨m, buffer⟩ =
      .ok cur ⟨m, userBytes taskAs m ptr buffer.length⟩ := by
  -- the bytes before `cur` are in, the others are as they were
  let I : ℕ → UserCopy → Prop := fun cur s => ∃ off, cur = ptr + off ∧ off ≤ buffer.length ∧
    s = ⟨m, userBytes taskAs m ptr off ++ buffer.drop off⟩
  have hstep : ∀ cur s, I cur s → cur < ptr + buffer.length →
      ∃ cur' s', (copyFromPage taskAs ptr (ptr + buffer.length) cur).run s = .ok cur' s' ∧
        ptr + buffer.length - cur' < ptr + buffer.length - cur ∧ I cur' s' := by
    intro cur s hI hcur
    obtain ⟨off, rfl, hoff, rfl⟩ := hI
    obtain ⟨n, hpos, hle, hrun⟩ := copyFromPage_run htranslates
      (userBytes taskAs m ptr off ++ buffer.drop off) (hgrants off (by omega))
      (Nat.le_add_right ptr off) hcur hlt
    refine ⟨_, _, hrun, by omega, off + n, by omega, by omega, ?_⟩
    rw [Nat.add_sub_cancel_left, splice_userBytes]
  have hstart : I ptr ⟨m, buffer⟩ := ⟨0, rfl, Nat.zero_le _, by simp [userBytes]⟩
  have hfuel : ptr + buffer.length - ptr < buffer.length + 1 := by omega
  obtain ⟨cur, s, hrun, hI, hend⟩ := Prog.loop_ok hstep hstart hfuel
  obtain ⟨off, rfl, hoff, rfl⟩ := hI
  have hall : off = buffer.length := by omega
  subst hall
  rw [List.drop_length, List.append_nil] at hrun
  exact ⟨_, hrun⟩

/-- A copy fills the whole buffer with what the user sees, or leaves it as it was. -/
theorem copyFromUser_ok (htranslates : Translates taskAs m) {window : UserAccessWindow}
    {buffer : List (BitVec 8)} (hin : window.Contains ptr buffer.length)
    (hgrants : GrantsRange taskAs m false ptr buffer.length) :
    (copyFromUser taskAs window ptr).run ⟨m, buffer⟩ =
      .ok () ⟨m, userBytes taskAs m ptr buffer.length⟩ := by
  unfold copyFromUser
  rw [Prog.get_bind_run]
  dsimp only
  rw [Prog.bind_ok (UserAccessWindow.validate_ok hin _)]
  split
  · next hlen =>
    rw [hlen, List.length_eq_zero_iff.mp hlen]
    rfl
  · next hlen =>
    have hpos : 0 < buffer.length := by omega
    have hlt := hin.lt hpos
    have hstop : checkedAdd ptr buffer.length = some (ptr + buffer.length) := if_pos hlt
    have hprobe : (onMemory (probeUserPages taskAs ptr buffer.length false)).run ⟨m, buffer⟩ =
        .ok () (⟨m, buffer⟩ : UserCopy) := by
      rcases probeUserPages_run htranslates hpos hlt with ⟨_, hrun⟩ | ⟨hnot, _⟩
      · exact Prog.zoom_ok hrun
      · exact absurd hgrants hnot
    obtain ⟨cur, hloop⟩ := copyFromPages_run htranslates hgrants hlt
    rw [Prog.bind_ok hprobe, hstop, Prog.okOr_some, Prog.pure_bind_run, Prog.bind_ok hloop]
    rfl

end

end Tyrne
