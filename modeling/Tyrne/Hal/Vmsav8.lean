import Tyrne.Hal.Mmu

/-!
# Page-table descriptors

The encoders of table, block and page descriptors, and the decoder of the flags of a page.
What the decoder reads of a descriptor does not overlap its output address, so a frame and
a flag set are both recovered from it.
-/

namespace Tyrne

def attrIdxDevice : BitVec 8 := 0
def attrIdxNormal : BitVec 8 := 1

def mairEl1Value : BitVec 64 := 0x0000_0000_0000_FF00

def shNonShareable : BitVec 8 := 0b00
def shInnerShareable : BitVec 8 := 0b11

def apKernelRw : BitVec 8 := 0b00
def apUserRw : BitVec 8 := 0b01
def apKernelRo : BitVec 8 := 0b10
def apUserRo : BitVec 8 := 0b11

def tcrEl1Value : BitVec 64 :=
  let t0sz : BitVec 64 := 16
  let epd0 : BitVec 64 := 0 <<< 7
  let irgn0 : BitVec 64 := 0b01 <<< 8
  let orgn0 : BitVec 64 := 0b01 <<< 10
  let sh0 : BitVec 64 := 0b11 <<< 12
  let tg0 : BitVec 64 := 0b00 <<< 14
  let t1sz : BitVec 64 := 16 <<< 16
  let a1 : BitVec 64 := 0 <<< 22
  let epd1 : BitVec 64 := 1 <<< 23
  let irgn1 : BitVec 64 := 0b01 <<< 24
  let orgn1 : BitVec 64 := 0b01 <<< 26
  let sh1 : BitVec 64 := 0b11 <<< 28
  let tg1 : BitVec 64 := 0b10 <<< 30
  let ips : BitVec 64 := 0b010 <<< 32
  let asField : BitVec 64 := 0 <<< 36
  t0sz ||| epd0 ||| irgn0 ||| orgn0 ||| sh0 ||| tg0 ||| t1sz ||| a1 ||| epd1 ||| irgn1 |||
    orgn1 ||| sh1 ||| tg1 ||| ips ||| asField

def tcrEl1Epd0Bit : BitVec 64 := 1 <<< 7
def tcrEl1Epd1Bit : BitVec 64 := 1 <<< 23
def tcrEl1ValueHighHalf : BitVec 64 := tcrEl1Value &&& ~~~tcrEl1Epd1Bit
def sctlrEl1MmuEnableMask : BitVec 64 := (1 <<< 0) ||| (1 <<< 2) ||| (1 <<< 12)

def descValidBit : BitVec 64 := 1 <<< 0
def descTableOrPageBit : BitVec 64 := 1 <<< 1
def descAfBit : BitVec 64 := 1 <<< 10
def descNgBit : BitVec 64 := 1 <<< 11
def descPxnBit : BitVec 64 := 1 <<< 53
def descUxnBit : BitVec 64 := 1 <<< 54

def blockOaMaskL2 : BitVec 64 := 0x0000_FFFF_FFE0_0000
def pageOaMaskL3 : BitVec 64 := 0x0000_FFFF_FFFF_F000
def tableNlaMask : BitVec 64 := 0x0000_FFFF_FFFF_F000

/-- The fields of a descriptor that a flag set decides. -/
structure DescriptorBits where
  attrIdx : BitVec 8
  ap : BitVec 8
  sh : BitVec 8
  pxn : Bool
  uxn : Bool
  ng : Bool
  deriving DecidableEq, Repr

def flagsToDescriptorBits (flags : MappingFlags) : DescriptorBits :=
  let device := flags.contains .device
  let write := flags.contains .write
  let execute := flags.contains .execute
  let user := flags.contains .user
  let global := flags.contains .global
  let attrIdx := if device then attrIdxDevice else attrIdxNormal
  let ap :=
    match user, write with
    | false, true => apKernelRw
    | false, false => apKernelRo
    | true, true => apUserRw
    | true, false => apUserRo
  let sh := if device then shNonShareable else shInnerShareable
  let (pxn, uxn) :=
    if device then (true, true)
    else if execute ∧ ¬ user then (false, true)
    else if execute ∧ user then (true, false)
    else (true, true)
  let ng := !global
  { attrIdx, ap, sh, pxn, uxn, ng }

def descriptorBitsToFlags (desc : BitVec 64) : MappingFlags :=
  let attrIdx := (desc >>> 2 &&& 0x7).setWidth 8
  let ap := (desc >>> 6 &&& 0x3).setWidth 8
  let device : Bool := attrIdx = attrIdxDevice
  let user : Bool := ap &&& 0b01 ≠ 0
  let write : Bool := ap &&& 0b10 = 0
  let pxn : Bool := desc &&& descPxnBit ≠ 0
  let uxn : Bool := desc &&& descUxnBit ≠ 0
  let execute := if user then !uxn else !pxn
  let global : Bool := desc &&& descNgBit = 0
  let flags := MappingFlags.empty
  let flags := if write then flags.union .write else flags
  let flags := if execute then flags.union .execute else flags
  let flags := if user then flags.union .user else flags
  let flags := if device then flags.union .device else flags
  if global then flags.union .global else flags

def blockDescriptor (pa : BitVec 64) (bits : DescriptorBits) : BitVec 64 :=
  descValidBit
    ||| (bits.attrIdx.setWidth 64 &&& 0x7) <<< 2
    ||| (bits.ap.setWidth 64 &&& 0x3) <<< 6
    ||| (bits.sh.setWidth 64 &&& 0x3) <<< 8
    ||| descAfBit
    ||| (if bits.ng then descNgBit else 0)
    ||| (pa &&& blockOaMaskL2)
    ||| (if bits.pxn then descPxnBit else 0)
    ||| (if bits.uxn then descUxnBit else 0)

def pageDescriptor (pa : BitVec 64) (bits : DescriptorBits) : BitVec 64 :=
  descValidBit
    ||| descTableOrPageBit
    ||| (bits.attrIdx.setWidth 64 &&& 0x7) <<< 2
    ||| (bits.ap.setWidth 64 &&& 0x3) <<< 6
    ||| (bits.sh.setWidth 64 &&& 0x3) <<< 8
    ||| descAfBit
    ||| (if bits.ng then descNgBit else 0)
    ||| (pa &&& pageOaMaskL3)
    ||| (if bits.pxn then descPxnBit else 0)
    ||| (if bits.uxn then descUxnBit else 0)

def tableDescriptor (nextLevelPa : BitVec 64) : BitVec 64 :=
  descValidBit ||| descTableOrPageBit ||| (nextLevelPa &&& tableNlaMask)

/-! ## The output address -/

section Address

variable {w oa : BitVec 64} {pa lo : ℕ}

/-- A mask of the bits from `lo` to 47, from its bits. -/
theorem oaMask_getLsbD
    (hall : ∀ j : Fin 64, oa.getLsbD j = (decide (lo ≤ (j : ℕ)) && decide ((j : ℕ) < 48)))
    (i : ℕ) : oa.getLsbD i = (decide (lo ≤ i) && decide (i < 48)) := by
  by_cases hi : i < 64
  · exact hall ⟨i, hi⟩
  · rw [BitVec.getLsbD_of_ge _ _ (by omega)]
    have hbig : ¬ i < 48 := by omega
    simp [hbig]

theorem pageOaMaskL3_getLsbD (i : ℕ) :
    pageOaMaskL3.getLsbD i = (decide (12 ≤ i) && decide (i < 48)) :=
  oaMask_getLsbD (by decide) i

theorem blockOaMaskL2_getLsbD (i : ℕ) :
    blockOaMaskL2.getLsbD i = (decide (21 ≤ i) && decide (i < 48)) :=
  oaMask_getLsbD (by decide) i

/-- A masked address: the frame or block that the low 48 bits lie in. -/
theorem and_oaMask (hmask : ∀ i, oa.getLsbD i = (decide (lo ≤ i) && decide (i < 48)))
    (w : BitVec 64) : (w &&& oa).toNat = w.toNat % 2 ^ 48 / 2 ^ lo * 2 ^ lo := by
  apply Nat.eq_of_testBit_eq
  intro i
  rw [← Nat.shiftLeft_eq, ← Nat.shiftRight_eq_div_pow, Nat.testBit_shiftLeft,
    Nat.testBit_shiftRight, Nat.testBit_mod_two_pow, BitVec.testBit_toNat, BitVec.getLsbD_and,
    hmask, BitVec.testBit_toNat]
  by_cases hi : lo ≤ i
  · have hback : lo + (i - lo) = i := by omega
    rw [hback]
    by_cases hlt : i < 48 <;> simp [hi, hlt]
  · simp [hi]

theorem and_pageOaMaskL3 (w : BitVec 64) :
    (w &&& pageOaMaskL3).toNat = w.toNat % 2 ^ 48 / 2 ^ 12 * 2 ^ 12 :=
  and_oaMask pageOaMaskL3_getLsbD w

theorem and_blockOaMaskL2 (w : BitVec 64) :
    (w &&& blockOaMaskL2).toNat = w.toNat % 2 ^ 48 / 2 ^ 21 * 2 ^ 21 :=
  and_oaMask blockOaMaskL2_getLsbD w

/-- An aligned address below 2^48 is its own masked address. -/
theorem and_pageOaMaskL3_of_aligned (haligned : pa % pageSize = 0) (hpa : pa < 2 ^ 48) :
    (BitVec.ofNat 64 pa &&& pageOaMaskL3).toNat = pa := by
  rw [and_pageOaMaskL3, BitVec.toNat_ofNat]
  unfold pageSize at haligned
  omega

theorem and_pageOaMaskL3_aligned (w : BitVec 64) : (w &&& pageOaMaskL3).toNat % pageSize = 0 := by
  rw [and_pageOaMaskL3]
  unfold pageSize
  omega

/-- What a mask beside the address keeps of a word with an address in it. -/
theorem or_address_and {attrs mask : BitVec 64} (hmask : oa &&& mask = 0#64) :
    (attrs ||| (w &&& oa)) &&& mask = attrs &&& mask := by
  rw [BitVec.and_comm, BitVec.and_or_distrib_left, BitVec.and_comm mask (w &&& oa),
    BitVec.and_assoc, hmask, BitVec.and_zero, BitVec.or_zero, BitVec.and_comm]

/-- The address of a word with an address in it. -/
theorem or_address_address {attrs : BitVec 64} (hattrs : attrs &&& oa = 0#64) :
    (attrs ||| (w &&& oa)) &&& oa = w &&& oa := by
  rw [BitVec.and_comm, BitVec.and_or_distrib_left, BitVec.and_comm _ attrs, hattrs,
    BitVec.zero_or, BitVec.and_comm, BitVec.and_assoc, BitVec.and_self]

end Address

/-! ## Table descriptors -/

section Tables

variable {pa : ℕ}

theorem tableDescriptor_valid (w : BitVec 64) : tableDescriptor w &&& descValidBit ≠ 0 := by
  unfold tableDescriptor
  rw [show tableNlaMask = pageOaMaskL3 from rfl, or_address_and (by decide)]
  decide

theorem tableDescriptor_table (w : BitVec 64) :
    tableDescriptor w &&& descTableOrPageBit ≠ 0 := by
  unfold tableDescriptor
  rw [show tableNlaMask = pageOaMaskL3 from rfl, or_address_and (by decide)]
  decide

theorem tableDescriptor_address (haligned : pa % pageSize = 0) (hpa : pa < 2 ^ 48) :
    (tableDescriptor (BitVec.ofNat 64 pa) &&& tableNlaMask).toNat = pa := by
  unfold tableDescriptor
  rw [show tableNlaMask = pageOaMaskL3 from rfl, or_address_address (by decide),
    and_pageOaMaskL3_of_aligned haligned hpa]

end Tables

/-! ## Page descriptors -/

section Pages

variable {pa : ℕ} {flags : MappingFlags} {desc desc' : BitVec 64}

/-- The fields of a page descriptor beside its address. -/
def pageAttributes (bits : DescriptorBits) : BitVec 64 := pageDescriptor 0#64 bits

theorem pageDescriptor_eq (pa : BitVec 64) (bits : DescriptorBits) :
    pageDescriptor pa bits = pageAttributes bits ||| (pa &&& pageOaMaskL3) := by
  unfold pageAttributes pageDescriptor
  rw [BitVec.zero_and, BitVec.or_zero]
  ac_rfl

/-- A field beside the address. -/
theorem field_congr {oa : BitVec 64} (hsame : desc &&& ~~~oa = desc' &&& ~~~oa)
    (mask : BitVec 64) (hmask : ~~~oa &&& mask = mask) : desc &&& mask = desc' &&& mask := by
  rw [← hmask, ← BitVec.and_assoc, hsame, BitVec.and_assoc]

theorem shift_congr {oa : BitVec 64} (hsame : desc &&& ~~~oa = desc' &&& ~~~oa) (n : ℕ)
    (mask : BitVec 64) (hmask : (mask <<< n) >>> n = mask)
    (hkeep : ~~~oa &&& mask <<< n = mask <<< n) : desc >>> n &&& mask = desc' >>> n &&& mask := by
  have hand := congrArg (fun x : BitVec 64 => x >>> n) (field_congr hsame (mask <<< n) hkeep)
  rw [BitVec.ushiftRight_and_distrib, BitVec.ushiftRight_and_distrib, hmask] at hand
  exact hand

/-- The flags are read off the fields beside the address. -/
theorem descriptorBitsToFlags_congr
    (hsame : desc &&& ~~~ pageOaMaskL3 = desc' &&& ~~~ pageOaMaskL3) :
    descriptorBitsToFlags desc = descriptorBitsToFlags desc' := by
  unfold descriptorBitsToFlags
  rw [shift_congr hsame 2 0x7 (by decide) (by decide),
    shift_congr hsame 6 0x3 (by decide) (by decide), field_congr hsame descPxnBit (by decide),
    field_congr hsame descUxnBit (by decide), field_congr hsame descNgBit (by decide)]

/-- The five named flags of a flag set. -/
def MappingFlags.named (flags : MappingFlags) : MappingFlags := ⟨flags.bits &&& 0x1f⟩

theorem named_contains {other : MappingFlags} (hother : 0x1f &&& other.bits = other.bits) :
    flags.named.contains other = flags.contains other := by
  unfold MappingFlags.named MappingFlags.contains
  dsimp only
  rw [BitVec.and_assoc, hother]

theorem flagsToDescriptorBits_named :
    flagsToDescriptorBits flags.named = flagsToDescriptorBits flags := by
  unfold flagsToDescriptorBits
  rw [named_contains (by decide), named_contains (by decide), named_contains (by decide),
    named_contains (by decide), named_contains (by decide)]

/-- There are 32 named flag sets. -/
theorem exists_named (flags : MappingFlags) :
    ∃ n : Fin 32, flags.named = ⟨BitVec.ofNat 32 n⟩ := by
  have hlt : flags.named.bits.toNat < 32 := by
    unfold MappingFlags.named
    dsimp only
    rw [BitVec.toNat_and]
    exact lt_of_le_of_lt Nat.and_le_right (by decide)
  refine ⟨⟨flags.named.bits.toNat, hlt⟩, ?_⟩
  show flags.named = ⟨BitVec.ofNat 32 flags.named.bits.toNat⟩
  rw [BitVec.ofNat_toNat, BitVec.setWidth_eq]

/-- What the attributes of the named flag sets are. -/
theorem pageAttributes_named : ∀ n : Fin 32,
    let attrs := pageAttributes (flagsToDescriptorBits ⟨BitVec.ofNat 32 n⟩)
    attrs &&& pageOaMaskL3 = 0#64 ∧ attrs &&& descValidBit ≠ 0 ∧
      attrs &&& descTableOrPageBit ≠ 0 ∧ attrs &&& descAfBit ≠ 0 := by
  decide +kernel

theorem descriptorBitsToFlags_named : ∀ n : Fin 32,
    ¬ ((⟨BitVec.ofNat 32 n⟩ : MappingFlags).contains .device ∧
      (⟨BitVec.ofNat 32 n⟩ : MappingFlags).contains .execute) →
    descriptorBitsToFlags (pageAttributes (flagsToDescriptorBits ⟨BitVec.ofNat 32 n⟩)) =
      ⟨BitVec.ofNat 32 n⟩ := by
  decide +kernel

theorem pageAttributes_of_flags (flags : MappingFlags) :
    let attrs := pageAttributes (flagsToDescriptorBits flags)
    attrs &&& pageOaMaskL3 = 0#64 ∧ attrs &&& descValidBit ≠ 0 ∧
      attrs &&& descTableOrPageBit ≠ 0 ∧ attrs &&& descAfBit ≠ 0 := by
  obtain ⟨n, hn⟩ := exists_named flags
  rw [← flagsToDescriptorBits_named, hn]
  exact pageAttributes_named n

/-- The descriptor of a page of the frame `pa`. -/
def pageDescriptorOf (pa : ℕ) (flags : MappingFlags) : BitVec 64 :=
  pageDescriptor (BitVec.ofNat 64 pa) (flagsToDescriptorBits flags)

theorem pageDescriptorOf_valid : pageDescriptorOf pa flags &&& descValidBit ≠ 0 := by
  unfold pageDescriptorOf
  rw [pageDescriptor_eq, or_address_and (by decide)]
  exact (pageAttributes_of_flags flags).2.1

theorem pageDescriptorOf_page : pageDescriptorOf pa flags &&& descTableOrPageBit ≠ 0 := by
  unfold pageDescriptorOf
  rw [pageDescriptor_eq, or_address_and (by decide)]
  exact (pageAttributes_of_flags flags).2.2.1

theorem pageDescriptorOf_af : pageDescriptorOf pa flags &&& descAfBit ≠ 0 := by
  unfold pageDescriptorOf
  rw [pageDescriptor_eq, or_address_and (by decide)]
  exact (pageAttributes_of_flags flags).2.2.2

theorem pageDescriptorOf_address (haligned : pa % pageSize = 0) (hpa : pa < 2 ^ 48) :
    (pageDescriptorOf pa flags &&& pageOaMaskL3).toNat = pa := by
  unfold pageDescriptorOf
  rw [pageDescriptor_eq, or_address_address (pageAttributes_of_flags flags).1,
    and_pageOaMaskL3_of_aligned haligned hpa]

/-- The flags of a page are the named flags it was mapped with. -/
theorem pageDescriptorOf_flags (hflags : ¬ (flags.contains .device ∧ flags.contains .execute)) :
    descriptorBitsToFlags (pageDescriptorOf pa flags) = flags.named := by
  have hattrs : descriptorBitsToFlags (pageDescriptorOf pa flags) =
      descriptorBitsToFlags (pageAttributes (flagsToDescriptorBits flags)) := by
    apply descriptorBitsToFlags_congr
    unfold pageDescriptorOf
    rw [pageDescriptor_eq, or_address_and (by decide)]
  obtain ⟨n, hn⟩ := exists_named flags
  rw [hattrs, ← flagsToDescriptorBits_named, hn]
  apply descriptorBitsToFlags_named
  rw [← hn, named_contains (by decide), named_contains (by decide)]
  exact hflags

/-- Who may not execute a page, whatever the flags. -/
theorem executeNever_named : ∀ n : Fin 32,
    let attrs := pageAttributes (flagsToDescriptorBits ⟨BitVec.ofNat 32 n⟩)
    ((⟨BitVec.ofNat 32 n⟩ : MappingFlags).contains .user → attrs &&& descPxnBit ≠ 0) ∧
      ((⟨BitVec.ofNat 32 n⟩ : MappingFlags).contains .device →
        attrs &&& descPxnBit ≠ 0 ∧ attrs &&& descUxnBit ≠ 0) := by
  decide +kernel

/-- The decoder sets named flags only. -/
theorem descriptorBitsToFlags_defined (desc : BitVec 64) :
    (descriptorBitsToFlags desc).named = descriptorBitsToFlags desc := by
  have hunion : ∀ (c : Prop) [Decidable c] (flags flag : MappingFlags), flags.named = flags →
      flag.named = flag → (if c then flags.union flag else flags).named =
        if c then flags.union flag else flags := by
    intro c _ flags flag hflags hflag
    split
    · unfold MappingFlags.named MappingFlags.union at *
      have hbits := congrArg MappingFlags.bits hflags
      have hbit := congrArg MappingFlags.bits hflag
      dsimp only at hbits hbit ⊢
      rw [BitVec.and_comm, BitVec.and_or_distrib_left, BitVec.and_comm _ flags.bits,
        BitVec.and_comm _ flag.bits, hbits, hbit]
    · exact hflags
  unfold descriptorBitsToFlags
  dsimp only
  refine hunion _ _ _ (hunion _ _ _ (hunion _ _ _ (hunion _ _ _ (hunion _ _ _ ?_ ?_) ?_) ?_) ?_) ?_
  all_goals rfl

/-- A page descriptor gives its frame back, and its named flags unless a device was to be
executable; a user page is not executable by the kernel and a device page by nobody, whatever
the flags; and no word decodes to a flag without a name. -/
theorem pageDescriptor_roundTrip (flags : MappingFlags) :
    (∀ pa, pa % pageSize = 0 → pa < 2 ^ 48 →
      (pageDescriptor (BitVec.ofNat 64 pa) (flagsToDescriptorBits flags) &&& pageOaMaskL3).toNat =
          pa ∧
        (¬ (flags.contains .device ∧ flags.contains .execute) → descriptorBitsToFlags
          (pageDescriptor (BitVec.ofNat 64 pa) (flagsToDescriptorBits flags)) = flags.named)) ∧
    (∀ pa, (flags.contains .user →
        pageDescriptor pa (flagsToDescriptorBits flags) &&& descPxnBit ≠ 0) ∧
      (flags.contains .device →
        pageDescriptor pa (flagsToDescriptorBits flags) &&& descPxnBit ≠ 0 ∧
          pageDescriptor pa (flagsToDescriptorBits flags) &&& descUxnBit ≠ 0)) ∧
    ∀ desc, (descriptorBitsToFlags desc).bits &&& ~~~0x1f = 0 := by
  refine ⟨fun pa haligned hpa => ⟨?_, fun hflags => ?_⟩, fun pa => ?_, fun desc => ?_⟩
  · exact pageDescriptorOf_address haligned hpa
  · exact pageDescriptorOf_flags hflags
  · obtain ⟨n, hn⟩ := exists_named flags
    obtain ⟨huser, hdevice⟩ := executeNever_named n
    rw [← hn, flagsToDescriptorBits_named, named_contains (by decide)] at huser hdevice
    rw [pageDescriptor_eq, or_address_and (by decide), or_address_and (by decide)]
    exact ⟨huser, hdevice⟩
  · have hdefined := congrArg MappingFlags.bits (descriptorBitsToFlags_defined desc)
    rw [← hdefined]
    unfold MappingFlags.named
    dsimp only
    rw [BitVec.and_assoc, show (0x1f : BitVec 32) &&& ~~~0x1f = 0#32 from by decide,
      BitVec.and_zero]
    rfl

/-- A user page that may be written. -/
theorem pageDescriptor_roundTrip_user :
    descriptorBitsToFlags (pageDescriptor (BitVec.ofNat 64 0x4000)
      (flagsToDescriptorBits (MappingFlags.user.union .write))) =
        (MappingFlags.user.union .write).named :=
  ((pageDescriptor_roundTrip (MappingFlags.user.union .write)).1 0x4000 rfl (by decide)).2
    (by decide)

end Pages

/-! ## Block descriptors -/

section Blocks

variable {pa : ℕ} {flags : MappingFlags}

/-- The fields of a block descriptor beside its address. -/
def blockAttributes (bits : DescriptorBits) : BitVec 64 := blockDescriptor 0#64 bits

theorem blockDescriptor_eq (pa : BitVec 64) (bits : DescriptorBits) :
    blockDescriptor pa bits = blockAttributes bits ||| (pa &&& blockOaMaskL2) := by
  unfold blockAttributes blockDescriptor
  rw [BitVec.zero_and, BitVec.or_zero]
  ac_rfl

theorem blockAttributes_named : ∀ n : Fin 32,
    let attrs := blockAttributes (flagsToDescriptorBits ⟨BitVec.ofNat 32 n⟩)
    attrs &&& blockOaMaskL2 = 0#64 ∧ attrs &&& descValidBit ≠ 0 ∧
      attrs &&& descTableOrPageBit = 0 ∧ attrs &&& descAfBit ≠ 0 := by
  decide +kernel

theorem blockAttributes_of_flags (flags : MappingFlags) :
    let attrs := blockAttributes (flagsToDescriptorBits flags)
    attrs &&& blockOaMaskL2 = 0#64 ∧ attrs &&& descValidBit ≠ 0 ∧
      attrs &&& descTableOrPageBit = 0 ∧ attrs &&& descAfBit ≠ 0 := by
  obtain ⟨n, hn⟩ := exists_named flags
  rw [← flagsToDescriptorBits_named, hn]
  exact blockAttributes_named n

/-- The descriptor of a block at `pa`. -/
def blockDescriptorOf (pa : ℕ) (flags : MappingFlags) : BitVec 64 :=
  blockDescriptor (BitVec.ofNat 64 pa) (flagsToDescriptorBits flags)

theorem blockDescriptorOf_valid : blockDescriptorOf pa flags &&& descValidBit ≠ 0 := by
  unfold blockDescriptorOf
  rw [blockDescriptor_eq, or_address_and (by decide)]
  exact (blockAttributes_of_flags flags).2.1

theorem blockDescriptorOf_block : blockDescriptorOf pa flags &&& descTableOrPageBit = 0 := by
  unfold blockDescriptorOf
  rw [blockDescriptor_eq, or_address_and (by decide)]
  exact (blockAttributes_of_flags flags).2.2.1

theorem blockDescriptorOf_af : blockDescriptorOf pa flags &&& descAfBit ≠ 0 := by
  unfold blockDescriptorOf
  rw [blockDescriptor_eq, or_address_and (by decide)]
  exact (blockAttributes_of_flags flags).2.2.2

/-- The low 48 bits of a block descriptor lie in the block at `pa`. -/
theorem blockDescriptorOf_address (haligned : pa % 2 ^ 21 = 0) (hpa : pa < 2 ^ 48) :
    (blockDescriptorOf pa flags).toNat % 2 ^ 48 / 2 ^ 21 * 2 ^ 21 = pa := by
  rw [← and_blockOaMaskL2]
  unfold blockDescriptorOf
  rw [blockDescriptor_eq, or_address_address (blockAttributes_of_flags flags).1,
    and_blockOaMaskL2, BitVec.toNat_ofNat]
  omega

/-- The fields beside the address are those of the flags. -/
theorem blockDescriptorOf_fields : blockDescriptorOf pa flags &&& ~~~blockOaMaskL2 =
    blockAttributes (flagsToDescriptorBits flags) &&& ~~~blockOaMaskL2 := by
  unfold blockDescriptorOf
  rw [blockDescriptor_eq, or_address_and (by decide)]

end Blocks

end Tyrne
