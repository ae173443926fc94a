import Tyrne.Syscall.Copies

/-!
# What the user copies write

A copy to user memory stores its bytes one after the other, each at the physical address
that the translation names, and asks again for each page. It does all of its work or none
unless the bytes change the pages that it comes to; then it may stop halfway. What was copied
out is what a copy of the same range reads back, unless two pages share a frame.
-/

namespace Tyrne

/-- `bytes` stored one after the other: the byte of address `ptr + j` goes to
`place (ptr + j)`. -/
def Memory.storeBytes (place : ℕ → Option ℕ) : Memory → ℕ → List (BitVec 8) → Memory
  | m, _, [] => m
  | m, ptr, byte :: rest =>
    storeBytes place ((place ptr).elim m fun pa => Function.update m pa byte) (ptr + 1) rest

namespace Memory

variable {place : ℕ → Option ℕ} {m : Memory} {ptr pa : ℕ} {bytes : List (BitVec 8)}

theorem storeBytes_append (xs ys : List (BitVec 8)) : m.storeBytes place ptr (xs ++ ys) =
    (m.storeBytes place ptr xs).storeBytes place (ptr + xs.length) ys := by
  induction xs generalizing m ptr with
  | nil => rfl
  | cons x xs ih =>
    have hlength : ptr + (x :: xs).length = ptr + 1 + xs.length := by
      rw [List.length_cons]
      omega
    rw [hlength]
    exact ih

/-- An address that is no byte's place keeps its value. -/
theorem storeBytes_other (hother : ∀ j < bytes.length, place (ptr + j) ≠ some pa) :
    m.storeBytes place ptr bytes pa = m pa := by
  induction bytes generalizing m ptr with
  | nil => rfl
  | cons byte rest ih =>
    have hrest : ∀ j < rest.length, place (ptr + 1 + j) ≠ some pa := by
      intro j hj
      rw [Nat.add_right_comm, Nat.add_assoc]
      exact hother (j + 1) (by rw [List.length_cons]; omega)
    have hfirst := hother 0 (by rw [List.length_cons]; omega)
    unfold storeBytes
    rw [ih hrest]
    cases hplace : place ptr with
    | none => rfl
    | some a =>
      have hne : pa ≠ a := by
        intro heq
        rw [Nat.add_zero, hplace, heq] at hfirst
        exact hfirst rfl
      exact Function.update_of_ne hne _ _

/-- The last byte stored at an address stays there. -/
theorem storeBytes_get {j : ℕ} (hj : j < bytes.length) (hplace : place (ptr + j) = some pa)
    (hlast : ∀ i < bytes.length, j < i → place (ptr + i) ≠ some pa) :
    m.storeBytes place ptr bytes pa = bytes[j] := by
  induction bytes generalizing m ptr j with
  | nil => exact absurd hj (Nat.not_lt_zero j)
  | cons byte rest ih =>
    rw [List.length_cons] at hj
    have hnext : ∀ i, ptr + 1 + i = ptr + (i + 1) := fun i => by omega
    unfold storeBytes
    cases j with
    | zero =>
      have hplace : place ptr = some pa := hplace
      have hrest : ∀ i < rest.length, place (ptr + 1 + i) ≠ some pa := by
        intro i hi
        rw [hnext]
        exact hlast (i + 1) (by rw [List.length_cons]; omega) (Nat.succ_pos i)
      rw [storeBytes_other hrest, hplace]
      exact Function.update_self ..
    | succ j =>
      apply ih (Nat.lt_of_succ_lt_succ hj)
      · rw [hnext]
        exact hplace
      · intro i hi hji
        rw [hnext]
        exact hlast (i + 1) (by rw [List.length_cons]; omega) (by omega)

/-- A run of adjacent places is written at once. -/
theorem writeBytes_eq_storeBytes (hplace : ∀ j < bytes.length, place (ptr + j) = some (pa + j)) :
    m.writeBytes pa bytes = m.storeBytes place ptr bytes := by
  funext a
  unfold writeBytes
  by_cases hin : pa ≤ a ∧ a - pa < bytes.length
  · have hget : bytes[a - pa]? = some bytes[a - pa] := List.getElem?_eq_getElem hin.2
    have hself : place (ptr + (a - pa)) = some a := by
      rw [hplace _ hin.2, Nat.add_sub_cancel' hin.1]
    have hlast : ∀ i < bytes.length, a - pa < i → place (ptr + i) ≠ some a := by
      intro i hi hlt heq
      rw [hplace i hi] at heq
      have heq := Option.some.inj heq
      omega
    rw [if_pos hin.1, hget, storeBytes_get hin.2 hself hlast]
    rfl
  · have hother : ∀ j < bytes.length, place (ptr + j) ≠ some a := by
      intro j hj heq
      rw [hplace j hj] at heq
      have heq := Option.some.inj heq
      omega
    rw [storeBytes_other hother]
    split
    · next hle =>
      have hnone : bytes[a - pa]? = none := List.getElem?_eq_none (by omega)
      rw [hnone]
      rfl
    · rfl

theorem writeBytes_other {a : ℕ} (hother : ∀ j < bytes.length, pa + j ≠ a) :
    m.writeBytes pa bytes a = m a := by
  have hstored : m.writeBytes pa bytes = m.storeBytes some pa bytes :=
    writeBytes_eq_storeBytes fun _ _ => rfl
  rw [hstored]
  exact storeBytes_other fun j hj heq => hother j hj (Option.some.inj heq)

end Memory

section

variable {AS : Type} [Mmu AS] {taskAs : AS} {m m' : Memory} {ptr len : ℕ}
  {window : UserAccessWindow} {buffer : List (BitVec 8)}

/-- The physical address behind user address `va`. -/
def userAddr (taskAs : AS) (m : Memory) (va : ℕ) : Option ℕ :=
  (userPage taskAs m (pageBase va)).map fun entry => entry.1.asUsize + va % pageSize

/-- User code may store at the physical address `pa`. -/
def Writable (taskAs : AS) (m : Memory) (pa : ℕ) : Prop :=
  ∃ va, Grants taskAs m true va ∧ userAddr taskAs m va = some pa

/-- Stores where user code may store leave the translation in `taskAs` as it is. -/
def KeepsTranslation (taskAs : AS) (m : Memory) : Prop :=
  ∀ m' : Memory, (∀ pa, ¬ Writable taskAs m pa → m' pa = m pa) →
    Translates taskAs m' ∧ ∀ page, userPage taskAs m' page = userPage taskAs m page

/-- The pages of `[ptr, ptr + len)` are mapped to distinct frames. -/
def DistinctFrames (taskAs : AS) (m : Memory) (ptr len : ℕ) : Prop :=
  ∀ i < len, ∀ j < len, ∀ frame flags flags',
    userPage taskAs m (pageBase (ptr + i)) = some (frame, flags) →
    userPage taskAs m (pageBase (ptr + j)) = some (frame, flags') →
    pageBase (ptr + i) = pageBase (ptr + j)

theorem Grants.weaken {va : ℕ} (hgrants : Grants taskAs m true va) :
    Grants taskAs m false va := by
  obtain ⟨frame, flags, hpage, huser, _⟩ := hgrants
  exact ⟨frame, flags, hpage, huser, fun hcon => (nomatch hcon)⟩

theorem Grants.exists_userAddr {requireWrite : Bool} {va : ℕ}
    (hgrants : Grants taskAs m requireWrite va) : ∃ pa, userAddr taskAs m va = some pa := by
  obtain ⟨frame, flags, hpage, _⟩ := hgrants
  unfold userAddr
  rw [hpage]
  exact ⟨_, rfl⟩

theorem userByte_eq {va pa : ℕ} (haddr : userAddr taskAs m va = some pa) :
    userByte taskAs m va = m pa := by
  unfold userAddr at haddr
  unfold userByte
  cases hpage : userPage taskAs m (pageBase va) with
  | none =>
    rw [hpage] at haddr
    exact nomatch haddr
  | some entry =>
    rw [hpage] at haddr
    cases haddr
    rfl

/-- On distinct frames, distinct addresses are behind distinct user addresses. -/
theorem DistinctFrames.injective (hdistinct : DistinctFrames taskAs m ptr len) {i j pa : ℕ}
    (hi : i < len) (hj : j < len) (hpa : userAddr taskAs m (ptr + i) = some pa)
    (hpa' : userAddr taskAs m (ptr + j) = some pa) : i = j := by
  unfold userAddr at hpa hpa'
  obtain ⟨⟨frame, flags⟩, hpage, haddr⟩ := Option.map_eq_some_iff.mp hpa
  obtain ⟨⟨frame', flags'⟩, hpage', haddr'⟩ := Option.map_eq_some_iff.mp hpa'
  have haligned : frame.asUsize % pageSize = 0 := frame.aligned
  have haligned' : frame'.asUsize % pageSize = 0 := frame'.aligned
  have hsplit := pageBase_add_mod (ptr + i)
  have hsplit' := pageBase_add_mod (ptr + j)
  have hlt : (ptr + i) % pageSize < pageSize := Nat.mod_lt _ (by unfold pageSize; omega)
  have hlt' : (ptr + j) % pageSize < pageSize := Nat.mod_lt _ (by unfold pageSize; omega)
  dsimp only at haddr haddr'
  generalize (ptr + i) % pageSize = off at haddr hsplit hlt
  generalize (ptr + j) % pageSize = off' at haddr' hsplit' hlt'
  have hsame : frame = frame' := by
    apply PhysFrame.ext_val
    have hval : frame.asUsize = frame'.asUsize := by
      unfold pageSize at haligned haligned' hlt hlt'
      omega
    exact hval
  subst hsame
  have hbase := hdistinct i hi j hj frame flags flags' hpage hpage'
  omega

/-! ## The copy to user memory -/

/-- User code may store to the page at `page` of `m'`, on the frame that it is on at `m`. -/
def KeepsPage (taskAs : AS) (m m' : Memory) (page : ℕ) : Prop :=
  ∃ frame flags flags', userPage taskAs m page = some (frame, flags) ∧
    (translatePage taskAs page).run m' = .ok (frame, flags') m' ∧
    flags'.contains .user = true ∧ flags'.contains .write = true

/-- Each page that starts inside the range of `bytes` is kept by the bytes in front of it. -/
def Undisturbed (taskAs : AS) (m : Memory) (ptr : ℕ) (bytes : List (BitVec 8)) : Prop :=
  ∀ n < bytes.length, 0 < n → (ptr + n) % pageSize = 0 →
    KeepsPage taskAs m (m.storeBytes (userAddr taskAs m) ptr (bytes.take n)) (ptr + n)

theorem Grants.keepsPage {va : ℕ} (htranslates : Translates taskAs m)
    (hgrants : Grants taskAs m true va) : KeepsPage taskAs m m (pageBase va) := by
  obtain ⟨frame, flags, hpage, huser, hwrite⟩ := hgrants
  exact ⟨frame, flags, flags, hpage, (translatePage_ok htranslates hpage).1, huser, hwrite rfl⟩

/-- The rest of a page goes to the frame that the page is on at `m`. -/
theorem copyToPage_run (htranslates : Translates taskAs m) {cur : ℕ}
    (hkeeps : KeepsPage taskAs m m' (pageBase cur)) (hptr : ptr ≤ cur)
    (hcur : cur < ptr + buffer.length) (hstop : ptr + buffer.length < 2 ^ 64) :
    ∃ n, 0 < n ∧ cur + n ≤ ptr + buffer.length ∧ cur % pageSize + n ≤ pageSize ∧
      ((cur + n) % pageSize = 0 ∨ cur + n = ptr + buffer.length) ∧
      (copyToPage taskAs ptr (ptr + buffer.length) cur).run ⟨m', buffer⟩ = .ok (cur + n)
        ⟨m'.storeBytes (userAddr taskAs m) cur ((buffer.drop (cur - ptr)).take n), buffer⟩ := by
  obtain ⟨frame, flags, flags', hpage, htranslate, huser, hwrite⟩ := hkeeps
  have hframe := (translatePage_ok htranslates hpage).2
  obtain ⟨n, hpos, hle, hin, hends, hinPage, hrun, hoff, hnext⟩ := pageRun hptr hcur hstop
  have hplace : ∀ j < ((buffer.drop (cur - ptr)).take n).length,
      userAddr taskAs m (cur + j) = some (frame.asUsize + cur % pageSize + j) := by
    intro j hj
    have hj : j < n := lt_of_lt_of_le hj (List.length_take_le ..)
    have hsame := pageBase_add (show cur % pageSize + j < pageSize by omega)
    unfold userAddr
    rw [hsame.1, hsame.2, hpage, Nat.add_assoc]
    rfl
  refine ⟨n, hpos, hle, hin, hends, ?_⟩
  unfold copyToPage
  dsimp only
  rw [hinPage, hrun, hoff]
  have hzoom : (onMemory (translatePage taskAs (pageBase cur))).run ⟨m', buffer⟩ =
      .ok (frame, flags') (⟨m', buffer⟩ : UserCopy) := Prog.zoom_ok htranslate
  rw [Prog.bind_ok hzoom]
  dsimp only
  rw [Prog.require_pos ⟨huser, hwrite⟩, Prog.pure_bind_run, physToKernelVa_pos hframe,
    Prog.pure_bind_run, Prog.modify_bind_run]
  dsimp only
  rw [physOf_directMap hframe, Memory.writeBytes_eq_storeBytes hplace, hnext]
  rfl

/-- The copy loop has stored the first `off` bytes, and is at a page or at an end of the range. -/
structure StoredUpTo (taskAs : AS) (m : Memory) (ptr : ℕ) (buffer : List (BitVec 8)) (off cur : ℕ)
    (s : UserCopy) : Prop where
  cur : cur = ptr + off
  le : off ≤ buffer.length
  ends : off = 0 ∨ (ptr + off) % pageSize = 0 ∨ off = buffer.length
  state : s = ⟨m.storeBytes (userAddr taskAs m) ptr (buffer.take off), buffer⟩

theorem StoredUpTo.start : StoredUpTo taskAs m ptr buffer 0 ptr ⟨m, buffer⟩ :=
  ⟨rfl, Nat.zero_le _, Or.inl rfl, rfl⟩

/-- A step of the copy loop at a page that the bytes before it have kept. -/
theorem StoredUpTo.step {off cur : ℕ} {s : UserCopy} (htranslates : Translates taskAs m)
    (hgrants : GrantsRange taskAs m true ptr buffer.length)
    (hlt : ptr + buffer.length < 2 ^ 64) (hs : StoredUpTo taskAs m ptr buffer off cur s)
    (hcur : cur < ptr + buffer.length)
    (hkeeps : 0 < off → (ptr + off) % pageSize = 0 →
      KeepsPage taskAs m (m.storeBytes (userAddr taskAs m) ptr (buffer.take off)) (ptr + off)) :
    ∃ off' cur' s', (copyToPage taskAs ptr (ptr + buffer.length) cur).run s = .ok cur' s' ∧
      off < off' ∧ cur' - cur ≤ pageSize - cur % pageSize ∧
      StoredUpTo taskAs m ptr buffer off' cur' s' := by
  obtain ⟨rfl, hoff, hends, rfl⟩ := hs
  have hlength : (buffer.take off).length = off := List.length_take_of_le hoff
  have hpage : KeepsPage taskAs m (m.storeBytes (userAddr taskAs m) ptr (buffer.take off))
      (pageBase (ptr + off)) := by
    rcases Nat.eq_zero_or_pos off with hzero | hpos
    · subst hzero
      exact (hgrants 0 (by omega)).keepsPage htranslates
    · have haligned : (ptr + off) % pageSize = 0 := by omega
      rw [pageBase_eq haligned le_rfl (by unfold pageSize; omega)]
      exact hkeeps hpos haligned
  obtain ⟨n, hpos, hle, hin, hnext, hrun⟩ :=
    copyToPage_run htranslates hpage (Nat.le_add_right ptr off) hcur hlt
  have hjoin : buffer.take (off + n) = buffer.take off ++ (buffer.drop off).take n :=
    List.take_add
  have hstored : m.storeBytes (userAddr taskAs m) ptr (buffer.take (off + n)) =
      (m.storeBytes (userAddr taskAs m) ptr (buffer.take off)).storeBytes (userAddr taskAs m)
        (ptr + off) ((buffer.drop off).take n) := by
    rw [hjoin, Memory.storeBytes_append, hlength]
  rw [Nat.add_sub_cancel_left, ← hstored] at hrun
  rw [Nat.add_assoc] at hnext
  exact ⟨off + n, _, _, hrun, by omega, by omega, (Nat.add_assoc ..), by omega, by omega, rfl⟩

/-- The copy loop on a range that is all granted. -/
theorem copyToPages_run (htranslates : Translates taskAs m)
    (hundisturbed : Undisturbed taskAs m ptr buffer)
    (hgrants : GrantsRange taskAs m true ptr buffer.length)
    (hlt : ptr + buffer.length < 2 ^ 64) :
    ∃ cur, (Prog.loop (· < ptr + buffer.length) (copyToPage taskAs ptr (ptr + buffer.length))
        (buffer.length + 1) ptr).run ⟨m, buffer⟩ =
      .ok cur ⟨m.storeBytes (userAddr taskAs m) ptr buffer, buffer⟩ := by
  let I : ℕ → UserCopy → Prop := fun cur s => ∃ off, StoredUpTo taskAs m ptr buffer off cur s
  have hstep : ∀ cur s, I cur s → cur < ptr + buffer.length →
      ∃ cur' s', (copyToPage taskAs ptr (ptr + buffer.length) cur).run s = .ok cur' s' ∧
        ptr + buffer.length - cur' < ptr + buffer.length - cur ∧ I cur' s' := by
    intro cur s ⟨off, hs⟩ hcur
    have hoff : off < buffer.length := by
      have heq := hs.cur
      omega
    obtain ⟨off', cur', s', hrun, hlater, _, hnext⟩ :=
      hs.step htranslates hgrants hlt hcur (hundisturbed off hoff)
    have heq := hs.cur
    have heq' := hnext.cur
    exact ⟨cur', s', hrun, by omega, off', hnext⟩
  have hfuel : ptr + buffer.length - ptr < buffer.length + 1 := by omega
  obtain ⟨cur, s, hrun, ⟨off, rfl, hoff, _, rfl⟩, hend⟩ :=
    Prog.loop_ok hstep ⟨0, StoredUpTo.start⟩ hfuel
  have hall : off = buffer.length := by omega
  subst hall
  rw [List.take_length] at hrun
  exact ⟨_, hrun⟩

/-- The state after the bytes are out: the translation is the first one. -/
theorem KeepsTranslation.stored (hkeeps : KeepsTranslation taskAs m)
    (hgrants : GrantsRange taskAs m true ptr len) {bytes : List (BitVec 8)}
    (hlength : bytes.length ≤ len) :
    Translates taskAs (m.storeBytes (userAddr taskAs m) ptr bytes) ∧
      ∀ page, userPage taskAs (m.storeBytes (userAddr taskAs m) ptr bytes) page =
        userPage taskAs m page := by
  apply hkeeps
  intro pa hnot
  apply Memory.storeBytes_other
  intro j hj hplace
  exact hnot ⟨ptr + j, hgrants j (by omega), hplace⟩

/-- Bytes that leave the translation as it is disturb no page. -/
theorem Undisturbed.of_same (hgrants : GrantsRange taskAs m true ptr buffer.length)
    (hsame : ∀ n, Translates taskAs (m.storeBytes (userAddr taskAs m) ptr (buffer.take n)) ∧
      ∀ page, userPage taskAs (m.storeBytes (userAddr taskAs m) ptr (buffer.take n)) page =
        userPage taskAs m page) : Undisturbed taskAs m ptr buffer := by
  intro n hn _ haligned
  obtain ⟨htranslates, hpages⟩ := hsame n
  obtain ⟨frame, flags, hpage, huser, hwrite⟩ := hgrants n hn
  rw [pageBase_eq haligned le_rfl (by unfold pageSize; omega)] at hpage
  have hthere := hpage
  rw [← hpages] at hthere
  exact ⟨frame, flags, flags, hpage, (translatePage_ok htranslates hthere).1, huser, hwrite rfl⟩

/-- Where no store of user code changes a translation, no copy does. -/
theorem KeepsTranslation.undisturbed (hkeeps : KeepsTranslation taskAs m)
    (hgrants : GrantsRange taskAs m true ptr buffer.length) :
    Undisturbed taskAs m ptr buffer :=
  .of_same hgrants fun _ => hkeeps.stored hgrants (List.length_take_le' ..)

/-- Equal pages give equal grants and equal addresses. -/
theorem userAddr_congr (hsame : ∀ page, userPage taskAs m' page = userPage taskAs m page) :
    userAddr taskAs m' = userAddr taskAs m := by
  funext va
  unfold userAddr
  rw [hsame]

theorem grantsRange_congr {requireWrite : Bool}
    (hsame : ∀ page, userPage taskAs m' page = userPage taskAs m page)
    (hgrants : GrantsRange taskAs m requireWrite ptr len) :
    GrantsRange taskAs m' requireWrite ptr len := by
  intro j hj
  have hpage := hgrants j hj
  unfold Grants at *
  rwa [hsame]

/-- The range lies in the window and user code may reach all of it. -/
def Copyable (taskAs : AS) (m : Memory) (window : UserAccessWindow) (requireWrite : Bool)
    (ptr len : ℕ) : Prop :=
  window.Contains ptr len ∧ GrantsRange taskAs m requireWrite ptr len

/-- The probe of a copyable range passes. -/
theorem Copyable.probe {requireWrite : Bool} (htranslates : Translates taskAs m)
    (hok : Copyable taskAs m window requireWrite ptr buffer.length)
    (hlen : 0 < buffer.length) :
    (onMemory (probeUserPages taskAs ptr buffer.length requireWrite)).run ⟨m, buffer⟩ =
      .ok () (⟨m, buffer⟩ : UserCopy) := by
  rcases probeUserPages_run htranslates hlen (hok.1.lt hlen) with ⟨_, hrun⟩ | ⟨hnot, _⟩
  · exact Prog.zoom_ok hrun
  · exact absurd hok.2 hnot

/-- The probe of any other range in the window refuses it. -/
theorem Copyable.refused {requireWrite : Bool} (htranslates : Translates taskAs m)
    (hnot : ¬ Copyable taskAs m window requireWrite ptr buffer.length)
    (hin : window.Contains ptr buffer.length) :
    0 < buffer.length ∧
      (onMemory (probeUserPages taskAs ptr buffer.length requireWrite)).run ⟨m, buffer⟩ =
        .err .faultAddress (⟨m, buffer⟩ : UserCopy) := by
  have hlen : 0 < buffer.length := by
    by_contra hzero
    refine hnot ⟨hin, fun j hj => ?_⟩
    omega
  refine ⟨hlen, ?_⟩
  rcases probeUserPages_run htranslates hlen (hin.lt hlen) with ⟨hall, _⟩ | ⟨_, hrun⟩
  · exact absurd ⟨hin, hall⟩ hnot
  · exact Prog.zoom_err hrun

theorem copyFromUser_err (htranslates : Translates taskAs m)
    (hnot : ¬ Copyable taskAs m window false ptr buffer.length) :
    (copyFromUser taskAs window ptr).run ⟨m, buffer⟩ = .err .faultAddress ⟨m, buffer⟩ := by
  unfold copyFromUser
  rw [Prog.get_bind_run]
  dsimp only
  by_cases hin : window.Contains ptr buffer.length
  · obtain ⟨hlen, hprobe⟩ := Copyable.refused htranslates hnot hin
    rw [Prog.bind_ok (UserAccessWindow.validate_ok hin _), if_neg hlen.ne']
    exact Prog.bind_err hprobe
  · exact Prog.bind_err (UserAccessWindow.validate_err hin _)

theorem copyToUser_err (htranslates : Translates taskAs m)
    (hnot : ¬ Copyable taskAs m window true ptr buffer.length) :
    (copyToUser taskAs window ptr).run ⟨m, buffer⟩ = .err .faultAddress ⟨m, buffer⟩ := by
  unfold copyToUser
  rw [Prog.get_bind_run]
  dsimp only
  by_cases hin : window.Contains ptr buffer.length
  · obtain ⟨hlen, hprobe⟩ := Copyable.refused htranslates hnot hin
    rw [Prog.bind_ok (UserAccessWindow.validate_ok hin _), if_neg hlen.ne']
    exact Prog.bind_err hprobe
  · exact Prog.bind_err (UserAccessWindow.validate_err hin _)

theorem Undisturbed.copyToUser_ok (hundisturbed : Undisturbed taskAs m ptr buffer)
    (htranslates : Translates taskAs m) (hok : Copyable taskAs m window true ptr buffer.length) :
    (copyToUser taskAs window ptr).run ⟨m, buffer⟩ =
      .ok () ⟨m.storeBytes (userAddr taskAs m) ptr buffer, buffer⟩ := by
  unfold copyToUser
  rw [Prog.get_bind_run]
  dsimp only
  rw [Prog.bind_ok (UserAccessWindow.validate_ok hok.1 _)]
  split
  · next hlen =>
    rw [List.length_eq_zero_iff.mp hlen]
    rfl
  · next hlen =>
    have hpos : 0 < buffer.length := by omega
    have hlt := hok.1.lt hpos
    have hstop : checkedAdd ptr buffer.length = some (ptr + buffer.length) := if_pos hlt
    obtain ⟨cur, hloop⟩ := copyToPages_run htranslates hundisturbed hok.2 hlt
    rw [Prog.bind_ok (hok.probe htranslates hpos), hstop, Prog.okOr_some, Prog.pure_bind_run,
      Prog.bind_ok hloop]
    rfl

theorem copyToUser_ok (htranslates : Translates taskAs m) (hkeeps : KeepsTranslation taskAs m)
    (hok : Copyable taskAs m window true ptr buffer.length) :
    (copyToUser taskAs window ptr).run ⟨m, buffer⟩ =
      .ok () ⟨m.storeBytes (userAddr taskAs m) ptr buffer, buffer⟩ :=
  (hkeeps.undisturbed hok.2).copyToUser_ok htranslates hok

/-- A copy of a copyable range that has returned has run its loop to the end. -/
theorem copyToUser_inv {s : UserCopy} (htranslates : Translates taskAs m)
    (hok : Copyable taskAs m window true ptr buffer.length) (hlen : 0 < buffer.length)
    (hrun : (copyToUser taskAs window ptr).run ⟨m, buffer⟩ = .ok () s) :
    ∃ cur, (Prog.loop (· < ptr + buffer.length) (copyToPage taskAs ptr (ptr + buffer.length))
      (buffer.length + 1) ptr).run ⟨m, buffer⟩ = .ok cur s := by
  have hlt := hok.1.lt hlen
  have hstop : checkedAdd ptr buffer.length = some (ptr + buffer.length) := if_pos hlt
  unfold copyToUser at hrun
  rw [Prog.get_bind_run] at hrun
  dsimp only at hrun
  rw [Prog.bind_ok (UserAccessWindow.validate_ok hok.1 _), if_neg hlen.ne',
    Prog.bind_ok (hok.probe htranslates hlen), hstop, Prog.okOr_some, Prog.pure_bind_run,
    Prog.bind_eq_ok] at hrun
  obtain ⟨cur, s₁, hloop, hend⟩ := hrun
  cases hend
  exact ⟨cur, hloop⟩

/-! ## What a whole copy says about its pages -/

/-- What a step of the copy loop has done that has returned. -/
theorem copyToPage_inv {cur cur' : ℕ} {s : UserCopy}
    (hreads : ∀ va, (Mmu.translate taskAs va).Keeps id) (hptr : ptr ≤ cur)
    (hcur : cur < ptr + buffer.length) (hstop : ptr + buffer.length < 2 ^ 64)
    (hrun : (copyToPage taskAs ptr (ptr + buffer.length) cur).run ⟨m, buffer⟩ = .ok cur' s) :
    ∃ frame flags n, (translatePage taskAs (pageBase cur)).run m = .ok (frame, flags) m ∧
      flags.contains .user = true ∧ flags.contains .write = true ∧ 0 < n ∧
      cur' = cur + n ∧ cur + n ≤ ptr + buffer.length ∧
      s = ⟨m.writeBytes (frame.asUsize + cur % pageSize) ((buffer.drop (cur - ptr)).take n),
        buffer⟩ := by
  obtain ⟨n, hpos, hle, _, _, hinPage, hn, hoff, hnext⟩ := pageRun hptr hcur hstop
  unfold copyToPage at hrun
  dsimp only at hrun
  rw [hinPage, hn, hoff, Prog.bind_eq_ok] at hrun
  obtain ⟨⟨frame, flags⟩, s₁, htranslate, hrest⟩ := hrun
  obtain ⟨m₁, hpage, rfl⟩ := Prog.zoom_eq_ok.mp htranslate
  have hkeeps : (translatePage taskAs (pageBase cur)).Keeps id :=
    (hreads ⟨pageBase cur⟩).zoom fun _ => rfl
  have hsame : m₁ = m := hkeeps m m₁ (by rw [hpage]; rfl)
  subst hsame
  dsimp only at hrest
  by_cases hperm : flags.contains .user = true ∧ flags.contains .write = true
  · by_cases hframe : frame.asUsize < directMapEnd
    · rw [Prog.require_pos hperm, Prog.pure_bind_run, physToKernelVa_pos hframe,
        Prog.pure_bind_run, Prog.modify_bind_run] at hrest
      dsimp only at hrest
      rw [physOf_directMap hframe, hnext] at hrest
      cases hrest
      exact ⟨frame, flags, n, hpage, hperm.1, hperm.2, hpos, rfl, hle, rfl⟩
    · rw [Prog.require_pos hperm, Prog.pure_bind_run, physToKernelVa_neg hframe] at hrest
      cases hrest
  · rw [Prog.require_neg hperm] at hrest
    cases hrest

/-- A copy of `bytes` and one byte more, which lies on a page of its own, is in front of that
page or has stored the byte in it. -/
inductive LastPage (taskAs : AS) (m : Memory) (ptr : ℕ) (bytes : List (BitVec 8))
    (byte : BitVec 8) : ℕ → UserCopy → Prop
  | before {off cur : ℕ} {s : UserCopy} : off ≤ bytes.length →
      StoredUpTo taskAs m ptr (bytes ++ [byte]) off cur s → LastPage taskAs m ptr bytes byte cur s
  | stored {cur : ℕ} {s : UserCopy} {frame : PhysFrame} {flags : MappingFlags} :
      ptr + bytes.length < cur →
      (translatePage taskAs (ptr + bytes.length)).run
        (m.storeBytes (userAddr taskAs m) ptr bytes) =
          .ok (frame, flags) (m.storeBytes (userAddr taskAs m) ptr bytes) →
      flags.contains .user = true → flags.contains .write = true →
      s.memory = (m.storeBytes (userAddr taskAs m) ptr bytes).writeBytes frame.asUsize [byte] →
      LastPage taskAs m ptr bytes byte cur s

theorem LastPage.step {bytes : List (BitVec 8)} {byte : BitVec 8} {cur cur' : ℕ} {s s' : UserCopy}
    (hpage : LastPage taskAs m ptr bytes byte cur s) (hbefore : Undisturbed taskAs m ptr bytes)
    (htranslates : Translates taskAs m) (hreads : ∀ va, (Mmu.translate taskAs va).Keeps id)
    (haligned : (ptr + bytes.length) % pageSize = 0)
    (hgrants : GrantsRange taskAs m true ptr (bytes ++ [byte]).length)
    (hlt : ptr + (bytes ++ [byte]).length < 2 ^ 64) (hcur : cur < ptr + (bytes ++ [byte]).length)
    (hcopied : (copyToPage taskAs ptr (ptr + (bytes ++ [byte]).length) cur).run s = .ok cur' s') :
    LastPage taskAs m ptr bytes byte cur' s' := by
  have hlength : (bytes ++ [byte]).length = bytes.length + 1 := List.length_append ..
  have htake : ∀ off ≤ bytes.length, (bytes ++ [byte]).take off = bytes.take off :=
    fun off hoff => List.take_append_of_le_length hoff
  cases hpage with
  | stored hpast => omega
  | @before off _ _ hoff hs =>
    rcases Nat.lt_or_ge off bytes.length with hin | hlast
    · have hkeeps := hbefore off hin
      rw [← htake off hoff] at hkeeps
      obtain ⟨off', cur₁, s₁, hrun₁, hlater, hpageEnd, hnext⟩ :=
        hs.step htranslates hgrants hlt hcur hkeeps
      rw [hcopied] at hrun₁
      cases hrun₁
      have heq := hs.cur
      have heq' := hnext.cur
      refine .before ?_ hnext
      unfold pageSize at haligned hpageEnd
      omega
    · have hall : off = bytes.length := by omega
      subst hall
      obtain ⟨rfl, _, _, rfl⟩ := hs
      obtain ⟨frame, flags, n, htranslate, huser, hwrite, hpos, rfl, hle, rfl⟩ :=
        copyToPage_inv hreads (Nat.le_add_right ..) hcur hlt hcopied
      have hone : n = 1 := by omega
      subst hone
      have hbase : pageBase (ptr + bytes.length) = ptr + bytes.length :=
        pageBase_eq haligned le_rfl (by unfold pageSize; omega)
      rw [hbase, htake _ le_rfl, List.take_length] at htranslate
      refine .stored (Nat.lt_succ_self _) htranslate huser hwrite ?_
      rw [htake _ le_rfl, List.take_length, haligned, Nat.add_zero, Nat.add_sub_cancel_left,
        List.drop_left]
      rfl

/-- A copy that ends with one byte of a page, on a byte that differs from the one there, has
found the page on the frame that it was on. -/
theorem Undisturbed.keepsPage {bytes : List (BitVec 8)} {byte : BitVec 8} {frame : PhysFrame}
    {flags : MappingFlags} {fuel cur : ℕ} (hbefore : Undisturbed taskAs m ptr bytes)
    (htranslates : Translates taskAs m) (hreads : ∀ va, (Mmu.translate taskAs va).Keeps id)
    (haligned : (ptr + bytes.length) % pageSize = 0)
    (hpage : userPage taskAs m (ptr + bytes.length) = some (frame, flags))
    (hbyte : m.storeBytes (userAddr taskAs m) ptr bytes frame.asUsize ≠ byte)
    (hgrants : GrantsRange taskAs m true ptr (bytes ++ [byte]).length)
    (hlt : ptr + (bytes ++ [byte]).length < 2 ^ 64)
    (hrun : (Prog.loop (· < ptr + (bytes ++ [byte]).length)
        (copyToPage taskAs ptr (ptr + (bytes ++ [byte]).length)) fuel ptr).run
          ⟨m, bytes ++ [byte]⟩ =
      .ok cur ⟨m.storeBytes (userAddr taskAs m) ptr (bytes ++ [byte]), bytes ++ [byte]⟩) :
    KeepsPage taskAs m (m.storeBytes (userAddr taskAs m) ptr bytes) (ptr + bytes.length) := by
  have hlength : (bytes ++ [byte]).length = bytes.length + 1 := List.length_append ..
  obtain ⟨hlast, hend⟩ := Prog.loop_holds (I := LastPage taskAs m ptr bytes byte)
    (fun _ _ _ _ hpage hcur hcopied =>
      hpage.step hbefore htranslates hreads haligned hgrants hlt hcur hcopied)
    (.before (Nat.zero_le _) StoredUpTo.start) hrun
  cases hlast with
  | @before off _ _ hoff hs =>
    have heq := hs.cur
    omega
  | @stored _ _ frame' flags' _ htranslate huser hwrite hmemory =>
    have hbase : pageBase (ptr + bytes.length) = ptr + bytes.length :=
      pageBase_eq haligned le_rfl (by unfold pageSize; omega)
    have hplace : userAddr taskAs m (ptr + bytes.length) = some frame.asUsize := by
      unfold userAddr
      rw [hbase, hpage, haligned]
      rfl
    have hthere : m.storeBytes (userAddr taskAs m) ptr (bytes ++ [byte]) frame.asUsize = byte := by
      rw [Memory.storeBytes_append]
      unfold Memory.storeBytes
      rw [hplace]
      exact Function.update_self ..
    have hsame : frame'.asUsize = frame.asUsize := by
      by_contra hne
      apply hbyte
      rw [← hthere]
      dsimp only at hmemory
      rw [hmemory]
      refine (Memory.writeBytes_other fun j hj => ?_).symm
      rw [List.length_singleton] at hj
      omega
    exact ⟨frame, flags, flags', hpage, PhysFrame.ext_val hsame ▸ htranslate, huser, hwrite⟩

/-- What each copy of a range has to do: all of its work or nothing. -/
def CopiesOut (taskAs : AS) (m : Memory) (window : UserAccessWindow) (ptr : ℕ)
    (buffer : List (BitVec 8)) : Prop :=
  (Copyable taskAs m window true ptr buffer.length →
    (copyToUser taskAs window ptr).run ⟨m, buffer⟩ =
      .ok () ⟨m.storeBytes (userAddr taskAs m) ptr buffer, buffer⟩) ∧
  (¬ Copyable taskAs m window true ptr buffer.length →
    (copyToUser taskAs window ptr).run ⟨m, buffer⟩ = .err .faultAddress ⟨m, buffer⟩)

def CopiesIn (taskAs : AS) (m : Memory) (window : UserAccessWindow) (ptr : ℕ)
    (buffer : List (BitVec 8)) : Prop :=
  (Copyable taskAs m window false ptr buffer.length →
    (copyFromUser taskAs window ptr).run ⟨m, buffer⟩ =
      .ok () ⟨m, userBytes taskAs m ptr buffer.length⟩) ∧
  (¬ Copyable taskAs m window false ptr buffer.length →
    (copyFromUser taskAs window ptr).run ⟨m, buffer⟩ = .err .faultAddress ⟨m, buffer⟩)

theorem Copyable.mono {requireWrite : Bool} {n : ℕ}
    (hok : Copyable taskAs m window requireWrite ptr len) (hle : n ≤ len) :
    Copyable taskAs m window requireWrite ptr n := by
  obtain ⟨hin, hgrants⟩ := hok
  have hpart : 0 + n ≤ len := by omega
  exact ⟨hin.part hpart, hgrants.part hpart⟩

theorem exists_byte_ne (b : BitVec 8) : ∃ byte, b ≠ byte := by
  refine ⟨b + 1, fun heq => ?_⟩
  bv_omega

/-- Where every copy of a prefix does all of its work, the pages of the range are kept. -/
theorem Undisturbed.of_copiesOut (htranslates : Translates taskAs m)
    (hreads : ∀ va, (Mmu.translate taskAs va).Keeps id)
    (hcopies : ∀ bytes, bytes.length ≤ buffer.length → CopiesOut taskAs m window ptr bytes)
    (hok : Copyable taskAs m window true ptr buffer.length) :
    Undisturbed taskAs m ptr buffer := by
  intro n
  -- each page from those in front of it
  induction n using Nat.strong_induction_on with
  | _ n ih =>
    intro hn hpos haligned
    have hlength : (buffer.take n).length = n := List.length_take_of_le hn.le
    have hbefore : Undisturbed taskAs m ptr (buffer.take n) := by
      intro k hk hk' halignedk
      rw [hlength] at hk
      rw [List.take_take, Nat.min_eq_left hk.le]
      exact ih k hk (hk.trans hn) hk' halignedk
    obtain ⟨frame, flags, hpage, _⟩ := hok.2 n hn
    rw [pageBase_eq haligned le_rfl (by unfold pageSize; omega)] at hpage
    have haligned' : (ptr + (buffer.take n).length) % pageSize = 0 := by rwa [hlength]
    have hpage' : userPage taskAs m (ptr + (buffer.take n).length) = some (frame, flags) := by
      rwa [hlength]
    -- a byte that is not there yet
    obtain ⟨byte, hbyte⟩ := exists_byte_ne
      (m.storeBytes (userAddr taskAs m) ptr (buffer.take n) frame.asUsize)
    have hone : (buffer.take n ++ [byte]).length = n + 1 := by
      rw [List.length_append, hlength, List.length_singleton]
    have hfront : Copyable taskAs m window true ptr (buffer.take n ++ [byte]).length :=
      hok.mono (by omega)
    have hcopied := (hcopies (buffer.take n ++ [byte]) (by omega)).1 hfront
    obtain ⟨cur, hloop⟩ := copyToUser_inv htranslates hfront (by omega) hcopied
    have hkept := hbefore.keepsPage htranslates hreads haligned' hpage' hbyte hfront.2
      (hfront.1.lt (by omega)) hloop
    rwa [hlength] at hkept

/-! ## The round trip -/

/-- The pages of the range are on the same frames at `m'` as at `m`, and user code may read
them. -/
def StillReads (taskAs : AS) (m m' : Memory) (ptr len : ℕ) : Prop :=
  ∀ j < len, Grants taskAs m' false (ptr + j) ∧
    userAddr taskAs m' (ptr + j) = userAddr taskAs m (ptr + j)

theorem StillReads.of_same (hgrants : GrantsRange taskAs m true ptr len)
    (hsame : ∀ page, userPage taskAs m' page = userPage taskAs m page) :
    StillReads taskAs m m' ptr len := by
  have hread : GrantsRange taskAs m false ptr len := fun j hj => (hgrants j hj).weaken
  exact fun j hj => ⟨grantsRange_congr hsame hread j hj, congrFun (userAddr_congr hsame) _⟩

/-- What was stored through the translation is what it shows. -/
theorem userBytes_stored (hdistinct : DistinctFrames taskAs m ptr buffer.length)
    (hstill : StillReads taskAs m (m.storeBytes (userAddr taskAs m) ptr buffer) ptr
      buffer.length) :
    userBytes taskAs (m.storeBytes (userAddr taskAs m) ptr buffer) ptr buffer.length =
      buffer := by
  unfold userBytes
  apply List.ext_getElem (by rw [List.length_map, List.length_range])
  intro j _ hj
  obtain ⟨hgrants, hsame⟩ := hstill j hj
  obtain ⟨pa, hthere⟩ := hgrants.exists_userAddr
  have hpa := hthere
  rw [hsame] at hpa
  have hlast : ∀ i < buffer.length, j < i → userAddr taskAs m (ptr + i) ≠ some pa := by
    intro i hi hji heq
    have hij := hdistinct.injective hj hi hpa heq
    omega
  rw [List.getElem_map, List.getElem_range, userByte_eq hthere,
    Memory.storeBytes_get hj hpa hlast]

theorem copyFromUser_stored (hin : window.Contains ptr buffer.length)
    (hdistinct : DistinctFrames taskAs m ptr buffer.length)
    (htranslates : Translates taskAs (m.storeBytes (userAddr taskAs m) ptr buffer))
    (hstill : StillReads taskAs m (m.storeBytes (userAddr taskAs m) ptr buffer) ptr
      buffer.length) {dst : List (BitVec 8)} (hlength : dst.length = buffer.length) :
    (copyFromUser taskAs window ptr).run ⟨m.storeBytes (userAddr taskAs m) ptr buffer, dst⟩ =
      .ok () ⟨m.storeBytes (userAddr taskAs m) ptr buffer, buffer⟩ := by
  have hin : window.Contains ptr dst.length := by rwa [hlength]
  have hgrants : GrantsRange taskAs (m.storeBytes (userAddr taskAs m) ptr buffer) false ptr
      dst.length := by
    rw [hlength]
    exact fun j hj => (hstill j hj).1
  have hrun := copyFromUser_ok htranslates hin hgrants
  rwa [hlength, userBytes_stored hdistinct hstill] at hrun

/-- The copies to user memory of up to `len` bytes each do all of their work or none, exactly if
none of them disturbs a page of its range. -/
theorem copiesOut_iff (htranslates : Translates taskAs m)
    (hreads : ∀ va, (Mmu.translate taskAs va).Keeps id) :
    (∀ buffer, buffer.length ≤ len → CopiesOut taskAs m window ptr buffer) ↔
      ∀ buffer, buffer.length ≤ len → Copyable taskAs m window true ptr buffer.length →
        Undisturbed taskAs m ptr buffer :=
  ⟨fun hcopies _ hlen hok =>
    .of_copiesOut htranslates hreads (fun bytes hle => hcopies bytes (hle.trans hlen)) hok,
   fun hundisturbed buffer hlen =>
    ⟨fun hok => (hundisturbed buffer hlen hok).copyToUser_ok htranslates hok,
      copyToUser_err htranslates⟩⟩

/-- A copy from user memory succeeds exactly on the ranges that the window contains and that
user code may reach, up to the last page of the address space, and fills the buffer with their
bytes; every other copy changes nothing. So it is with the copies to user memory of up to `len`
bytes, exactly if none of them disturbs a page of its range. A copy that disturbs none writes to
the range only, and is read back from distinct frames that the pages are still on. -/
theorem userCopies_exact (htranslates : Translates taskAs m)
    (hreads : ∀ va, (Mmu.translate taskAs va).Keeps id) (window : UserAccessWindow)
    (ptr len : ℕ) :
    (∀ buffer, CopiesIn taskAs m window ptr buffer) ∧
    ((∀ buffer, buffer.length ≤ len → CopiesOut taskAs m window ptr buffer) ↔
      ∀ buffer, buffer.length ≤ len → Copyable taskAs m window true ptr buffer.length →
        Undisturbed taskAs m ptr buffer) ∧
    ∀ buffer, (Copyable taskAs m window true ptr buffer.length →
        Undisturbed taskAs m ptr buffer) →
      CopiesOut taskAs m window ptr buffer ∧
      ∀ m' s', (copyToUser taskAs window ptr).run ⟨m, buffer⟩ = .ok () ⟨m', s'⟩ →
        (∀ pa, (∀ j < buffer.length, userAddr taskAs m (ptr + j) ≠ some pa) → m' pa = m pa) ∧
        (DistinctFrames taskAs m ptr buffer.length → Translates taskAs m' →
          StillReads taskAs m m' ptr buffer.length → ∀ dst : List (BitVec 8),
          dst.length = buffer.length →
          (copyFromUser taskAs window ptr).run ⟨m', dst⟩ = .ok () ⟨m', buffer⟩) := by
  refine ⟨fun buffer => ⟨fun hok => copyFromUser_ok htranslates hok.1 hok.2,
    copyFromUser_err htranslates⟩, copiesOut_iff htranslates hreads,
    fun buffer hundisturbed => ⟨⟨fun hok => (hundisturbed hok).copyToUser_ok htranslates hok,
      copyToUser_err htranslates⟩, fun m' s' hrun => ?_⟩⟩
  by_cases hok : Copyable taskAs m window true ptr buffer.length
  · rw [(hundisturbed hok).copyToUser_ok htranslates hok] at hrun
    cases hrun
    exact ⟨fun pa hother => Memory.storeBytes_other hother,
      fun hdistinct hlater hstill dst hlength =>
        copyFromUser_stored hok.1 hdistinct hlater hstill hlength⟩
  · rw [copyToUser_err htranslates hok] at hrun
    exact nomatch hrun

end

theorem lowFrame_aligned : 0x4000 % pageSize = 0 := rfl

/-- The last two pages of the address space, on the frames at `0x5000` and `0x4000`. -/
def topPage (page : ℕ) : Option (PhysFrame × MappingFlags) :=
  if page = 0xFFFF_FFFF_FFFF_E000 then some (⟨⟨0x5000⟩, rfl⟩, .union .user .write)
  else if page = 0xFFFF_FFFF_FFFF_F000 then
    some (⟨⟨0x4000⟩, lowFrame_aligned⟩, .union .user .write)
  else none

theorem topPage_cases {page : ℕ} {frame : PhysFrame} {flags : MappingFlags}
    (hpage : topPage page = some (frame, flags)) :
    page = 0xFFFF_FFFF_FFFF_E000 ∧ frame.asUsize = 0x5000 ∨
      page = 0xFFFF_FFFF_FFFF_F000 ∧ frame.asUsize = 0x4000 := by
  unfold topPage at hpage
  split at hpage
  · next heq =>
    cases hpage
    exact Or.inl ⟨heq, rfl⟩
  · split at hpage
    · next heq =>
      cases hpage
      exact Or.inr ⟨heq, rfl⟩
    · exact nomatch hpage

@[reducible] def topPagesMmu : Mmu Unit where
  translate _ va := Prog.okOr (topPage va.val) .notMapped

theorem topPages_userPage (m : Memory) (page : ℕ) :
    @userPage Unit topPagesMmu () m page = topPage page := by
  have hrun : (@Mmu.translate Unit topPagesMmu () ⟨page⟩).run m =
    (Prog.okOr (topPage page) MmuError.notMapped).run m := rfl
  unfold userPage
  rw [hrun]
  cases topPage page with
  | none => rfl
  | some entry => rfl

theorem topPages_translates (m : Memory) : @Translates Unit topPagesMmu () m := by
  intro va
  show (∃ frame flags, (Prog.okOr (topPage va.val) MmuError.notMapped).run m =
    .ok (frame, flags) m ∧ frame.asUsize < directMapEnd) ∨
    ∃ err, (Prog.okOr (topPage va.val) MmuError.notMapped).run m = .err err m
  cases hpage : topPage va.val with
  | none => exact Or.inr ⟨_, rfl⟩
  | some entry =>
    obtain ⟨frame, flags⟩ := entry
    refine Or.inl ⟨frame, flags, rfl, ?_⟩
    unfold directMapEnd
    rcases topPage_cases hpage with ⟨_, hframe⟩ | ⟨_, hframe⟩
    · omega
    · omega

theorem topPages_keeps (m : Memory) : @KeepsTranslation Unit topPagesMmu () m := by
  intro m' _
  refine ⟨topPages_translates m', fun page => ?_⟩
  rw [topPages_userPage, topPages_userPage]

theorem topPages_distinct (m : Memory) (ptr len : ℕ) :
    @DistinctFrames Unit topPagesMmu () m ptr len := by
  intro i _ j _ frame flags flags' hpage hpage'
  rw [topPages_userPage] at hpage hpage'
  rcases topPage_cases hpage with ⟨hi, hframe⟩ | ⟨hi, hframe⟩
  · rcases topPage_cases hpage' with ⟨hj, _⟩ | ⟨_, hcon⟩
    · rw [hi, hj]
    · omega
  · rcases topPage_cases hpage' with ⟨_, hcon⟩ | ⟨hj, _⟩
    · omega
    · rw [hi, hj]

/-- Three bytes that end in the last page of the address space. -/
theorem topPages_copyable (m : Memory) : @Copyable Unit topPagesMmu () m
    ⟨0xFFFF_FFFF_FFFF_E000, 0x1FFF⟩ true 0xFFFF_FFFF_FFFF_EFFE 3 := by
  let _ : Mmu Unit := topPagesMmu
  refine ⟨Or.inr ⟨by decide, by decide, by decide, by decide⟩, fun j hj => ?_⟩
  have hbase : pageBase (0xFFFF_FFFF_FFFF_EFFE + j) = 0xFFFF_FFFF_FFFF_E000 ∨
      pageBase (0xFFFF_FFFF_FFFF_EFFE + j) = 0xFFFF_FFFF_FFFF_F000 := by
    unfold pageBase pageSize
    omega
  unfold Grants
  rw [topPages_userPage]
  rcases hbase with hbase | hbase
  · rw [hbase]
    exact ⟨_, _, rfl, by decide, fun _ => by decide⟩
  · rw [hbase]
    exact ⟨_, _, rfl, by decide, fun _ => by decide⟩

/-- They go out, two to one frame and one to the other, and come back. -/
theorem userCopies_exact_topPages : ∃ m',
    (@copyToUser Unit topPagesMmu () ⟨0xFFFF_FFFF_FFFF_E000, 0x1FFF⟩
        0xFFFF_FFFF_FFFF_EFFE).run ⟨fun _ => 0, [1, 2, 3]⟩ = .ok () ⟨m', [1, 2, 3]⟩ ∧
      m' 0x5FFE = 1 ∧ m' 0x5FFF = 2 ∧ m' 0x4000 = 3 ∧ m' 0x6000 = 0 ∧
      (@copyFromUser Unit topPagesMmu () ⟨0xFFFF_FFFF_FFFF_E000, 0x1FFF⟩
        0xFFFF_FFFF_FFFF_EFFE).run ⟨m', [0, 0, 0]⟩ = .ok () ⟨m', [1, 2, 3]⟩ := by
  let _ : Mmu Unit := topPagesMmu
  have hcopyable := topPages_copyable fun _ => 0
  have hreads : ∀ va, (Mmu.translate () va).Keeps id := fun va => Prog.keeps_okOr _ _
  obtain ⟨_, _, hall⟩ := userCopies_exact (topPages_translates fun _ => 0) hreads
    ⟨0xFFFF_FFFF_FFFF_E000, 0x1FFF⟩ 0xFFFF_FFFF_FFFF_EFFE 3
  have hkeeps := topPages_keeps fun _ => 0
  obtain ⟨hout, hback⟩ := hall [1, 2, 3] fun hok => hkeeps.undisturbed hok.2
  have hrun := hout.1 hcopyable
  have hread := (hback _ _ hrun).2 (topPages_distinct _ _ _) (topPages_translates _)
    (.of_same hcopyable.2 (hkeeps.stored hcopyable.2 le_rfl).2) [0, 0, 0] rfl
  exact ⟨_, hrun, by decide +kernel, by decide +kernel, by decide +kernel, by decide +kernel,
    hread⟩

end Tyrne
