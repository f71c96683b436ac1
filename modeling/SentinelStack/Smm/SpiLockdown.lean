import SentinelStack.Lib.CTypes
import SentinelStack.Lib.Blocks

/- The SPI flash lockdown of the SMM driver (`EnforceSpiLockdown` and the entry point in
   `SentinelSmmDxe.c`, registers from `SentinelSpiLockdown.h`), over a chipset whose bits
   may be latched before the driver runs.

   The driver reads every register back and logs what did not stick, but returns an error
   only when RCBA is disabled. Main results: `spi_lockdown_iff` — after a success the flash
   is locked exactly if FLOCKDN was clear or PR0 protected the ME region before, and
   BLE and SMM_BWP were not stuck at 0; `locked_of_no_error` — the log knows: a run
   that logs no error leaves the flash locked; `spi_success_unlocked` is a success that
   protects nothing. -/
namespace SentinelStack.Smm
open SentinelStack.Lib

/-! Registers. -/

def rBiosCntl : U32 := 0xDC
def bBiosCntlBioswe : U8 := 0x01
def bBiosCntlBle : U8 := 0x02
def bBiosCntlSmmBwp : U8 := 0x20
def bRcbaEnable : U32 := 0x00000001
def rcbaAddrMask : U32 := 0xFFFFC000
def spibarOffset : U32 := 0x3800
def rHsfs : U32 := 0x04
def bHsfsFlockdn : U32 := 0x00008000
def rPr0 : U32 := 0x74
def bPrWpEnable : U32 := 0x00008000
def bPrRpEnable : U32 := 0x80000000
def rFreg2Me : U32 := 0x58
def fregBaseMask : U32 := 0x00001FFF
def fregLimitMask : U32 := 0x1FFF0000
def fregLimitShift : Nat := 16

def prBase (physAddr : U32) : U32 := (physAddr >>> 12) &&& 0x1FFF
def prLimit (physAddr : U32) : U32 := ((physAddr >>> 12) &&& 0x1FFF) <<< 16

def prValue (base limit : U32) (writeProtect readProtect : Bool) : U32 :=
  prBase base ||| prLimit limit ||| (if writeProtect then bPrWpEnable else 0) |||
    (if readProtect then bPrRpEnable else 0)

/-- The registers of the LPC bridge and of the SPI controller. -/
structure Chipset where
  rcba : U32
  freg2 : U32
  pr0 : U32
  hsfs : U32
  biosCntl : U8
  deriving DecidableEq, Repr

/-- What a write leaves: the bits of BIOS_CNTL that are stuck, BIOSWE not among them, and what becomes
    of the bits of HSFS other than FLOCKDN. -/
structure LatchRules where
  stuck : U8
  bioswe_free : stuck &&& bBiosCntlBioswe = 0
  hsfsStatus : U32 → U32 → U32

def Flockdn (c : Chipset) : Prop := c.hsfs &&& bHsfsFlockdn ≠ 0

instance (c : Chipset) : Decidable (Flockdn c) := inferInstanceAs (Decidable (_ ≠ _))

namespace Chipset

variable (hw : LatchRules) (c : Chipset)

/-- Where the chipset decodes the SPI registers. -/
def spiBar : U32 := (c.rcba &&& rcbaAddrMask) + spibarOffset

/-- FLOCKDN stays once set. -/
def latchHsfs (old new : U32) : U32 :=
  (hw.hsfsStatus old new &&& ~~~bHsfsFlockdn) ||| ((old ||| new) &&& bHsfsFlockdn)

def mmioRead32 (addr : U32) : U32 :=
  if addr = c.spiBar + rHsfs then c.hsfs
  else if addr = c.spiBar + rFreg2Me then c.freg2
  else if addr = c.spiBar + rPr0 then c.pr0
  else 0xFFFFFFFF

/-- A write: FREG2 is read-only, and PR0 is with FLOCKDN. -/
def mmioWrite32 (addr value : U32) : Chipset :=
  if addr = c.spiBar + rHsfs then { c with hsfs := latchHsfs hw c.hsfs value }
  else if addr = c.spiBar + rPr0 ∧ ¬Flockdn c then { c with pr0 := value }
  else c

def mmioOr32 (addr bits : U32) : Chipset := c.mmioWrite32 hw addr (c.mmioRead32 addr ||| bits)

/-- `PciWrite8(LPC_PCI_ADDR(R_BIOS_CNTL), ..)`. -/
def writeBiosCntl (value : U8) : Chipset :=
  { c with biosCntl := (c.biosCntl &&& hw.stuck) ||| (value &&& ~~~hw.stuck) }

end Chipset

/-! The driver. -/

inductive EfiStatus where
  | success
  | deviceError
  deriving DecidableEq, Repr

/-- An opcode of the S3 boot script. -/
inductive ScriptWrite where
  | pciConfigWrite8 (addr : U64) (value : U8)
  | memWrite32 (addr : U64) (value : U32)
  deriving DecidableEq, Repr

/-- The messages of the driver. -/
inductive LockdownLog where
  | s3ProtocolMissing
  | s3ProtocolFound
  | rcbaDisabled
  | meRegionEmpty
  | pr0VerifyFailed
  | flockdnFailed
  | flockdnLocked
  | flockdnAlready
  | lockdownComplete
  | lockdownPartial
  | recordFailed (write : ScriptWrite)
  | recorded (write : ScriptWrite)
  deriving DecidableEq, Repr

/-- The messages of level `DEBUG_ERROR`. -/
def LockdownLog.isError : LockdownLog → Bool
  | rcbaDisabled | pr0VerifyFailed | flockdnFailed | lockdownPartial | recordFailed _ => true
  | _ => false

/-- The registers, the boot script and the log. -/
structure LockdownState where
  chipset : Chipset
  script : List ScriptWrite := []
  log : List LockdownLog := []
  deriving DecidableEq, Repr

def LockdownState.say (s : LockdownState) (message : LockdownLog) : LockdownState :=
  { s with log := s.log ++ [message] }

def LockdownState.sayIf (p : Prop) [Decidable p] (s : LockdownState) (message : LockdownLog) : LockdownState :=
  if p then s.say message else s

def meBase (freg2 : U32) : U32 := (freg2 &&& fregBaseMask) <<< 12

def meLimit (freg2 : U32) : U32 := (((freg2 &&& fregLimitMask) >>> fregLimitShift) <<< 12) ||| 0xFFF

/-- What the driver writes to PR0. -/
def pr0Value (freg2 : U32) : U32 := prValue (meBase freg2) (meLimit freg2) true false

variable (hw : LatchRules)

/-- Steps 2 and 3: the ME region into PR0. -/
def programPr0 (spiBar : U32) (s : LockdownState) : LockdownState :=
  let freg2 := s.chipset.mmioRead32 (spiBar + rFreg2Me)
  let s := s.sayIf (meBase freg2 = 0 ∧ meLimit freg2 = 0xFFF) .meRegionEmpty
  let s := { s with chipset := s.chipset.mmioWrite32 hw (spiBar + rPr0) (pr0Value freg2) }
  -- "Non-fatal: continue with BIOS_CNTL lockdown even if PR0 fails"
  s.sayIf (s.chipset.mmioRead32 (spiBar + rPr0) ≠ pr0Value freg2) .pr0VerifyFailed

/-- Step 4: FLOCKDN, unless it is set. -/
def assertFlockdn (spiBar : U32) (s : LockdownState) : LockdownState :=
  if s.chipset.mmioRead32 (spiBar + rHsfs) &&& bHsfsFlockdn = 0 then
    let s := { s with chipset := s.chipset.mmioOr32 hw (spiBar + rHsfs) bHsfsFlockdn }
    s.say (if s.chipset.mmioRead32 (spiBar + rHsfs) &&& bHsfsFlockdn = 0 then .flockdnFailed else .flockdnLocked)
  else s.say .flockdnAlready

/-- Step 5: BIOSWE off, BLE and SMM_BWP on. -/
def lockBiosCntl (s : LockdownState) : LockdownState :=
  let biosCntl := s.chipset.biosCntl &&& ~~~bBiosCntlBioswe ||| bBiosCntlBle ||| bBiosCntlSmmBwp
  let s := { s with chipset := s.chipset.writeBiosCntl hw biosCntl }
  s.say (if s.chipset.biosCntl &&& bBiosCntlBle ≠ 0 ∧ s.chipset.biosCntl &&& bBiosCntlSmmBwp ≠ 0 then .lockdownComplete
    else .lockdownPartial)

/-- `S3SaveState->Write`, and whether it succeeds. -/
def record (ok : Bool) (write : ScriptWrite) (s : LockdownState) : LockdownState :=
  if ok then { s with script := s.script ++ [write] }.say (.recorded write) else s.say (.recordFailed write)

/-- `EFI_BOOT_SCRIPT_PCI_ADDRESS(bus, dev, func, reg)`. -/
def efiBootScriptPciAddress (bus dev func reg : U64) : U64 := (bus <<< 24) ||| (dev <<< 16) ||| (func <<< 8) ||| reg

/-- Step 6: the writes to replay on a resume, HSFS last. `freg2` and `hsfs` are what was read before. -/
def recordS3 (spiBar freg2 hsfs : U32) (s3Write : Nat → Bool) (s : LockdownState) : LockdownState :=
  let s := record (s3Write 0)
    (.pciConfigWrite8 (efiBootScriptPciAddress 0 31 0 (rBiosCntl.setWidth 64)) s.chipset.biosCntl) s
  let s := record (s3Write 1) (.memWrite32 ((spiBar + rPr0).setWidth 64) (pr0Value freg2)) s
  record (s3Write 2) (.memWrite32 ((spiBar + rHsfs).setWidth 64) (hsfs ||| bHsfsFlockdn)) s

/-- `EnforceSpiLockdown`. `s3` is the S3 protocol, if there is one: which of its writes succeed. -/
def enforceSpiLockdown (s3 : Option (Nat → Bool)) (c : Chipset) : EfiStatus × LockdownState :=
  let s : LockdownState := { chipset := c }
  let s := s.say (if s3.isNone then .s3ProtocolMissing else .s3ProtocolFound)
  let rcbaRaw := s.chipset.rcba
  if rcbaRaw &&& bRcbaEnable = 0 then (.deviceError, s.say .rcbaDisabled)
  else
    let spiBar := (rcbaRaw &&& rcbaAddrMask) + spibarOffset
    let freg2 := s.chipset.mmioRead32 (spiBar + rFreg2Me)
    let s := programPr0 hw spiBar s
    let s := assertFlockdn hw spiBar s
    let hsfs := s.chipset.mmioRead32 (spiBar + rHsfs)
    let s := lockBiosCntl hw s
    match s3 with
    | none => (.success, s)
    | some s3Write => (.success, recordS3 spiBar freg2 hsfs s3Write s)

inductive BootOutcome where
  | halted
  | returned (status : EfiStatus)
  deriving DecidableEq, Repr

/-- `SentinelSmmDxeEntry`: it halts on an error of the lockdown. -/
def sentinelSmmDxeEntry (s3 : Option (Nat → Bool)) (c : Chipset) : BootOutcome × LockdownState :=
  let (status, s) := enforceSpiLockdown hw s3 c
  if status ≠ .success then (.halted, s) else (.returned .success, s)

/-! What a locked flash is. -/

/-- The flash addresses of the ME region. -/
def InMeRegion (freg2 : U32) (addr : Nat) : Prop :=
  (freg2.extractLsb' 0 13).toNat * 4096 ≤ addr ∧ addr < ((freg2.extractLsb' 16 13).toNat + 1) * 4096

/-- The flash addresses a protected-range register covers. -/
def InProtectedRange (pr : U32) (addr : Nat) : Prop :=
  (pr.extractLsb' 0 13).toNat * 4096 ≤ addr ∧ addr < ((pr.extractLsb' 16 13).toNat + 1) * 4096

/-- The register write-protects the whole ME region. -/
def ProtectsMe (pr freg2 : U32) : Prop :=
  pr &&& bPrWpEnable ≠ 0 ∧ ∀ addr, InMeRegion freg2 addr → InProtectedRange pr addr

structure Locked (c : Chipset) : Prop where
  pr0 : ProtectsMe c.pr0 c.freg2
  flockdn : Flockdn c
  ble : c.biosCntl &&& bBiosCntlBle ≠ 0
  smmBwp : c.biosCntl &&& bBiosCntlSmmBwp ≠ 0
  bioswe : c.biosCntl &&& bBiosCntlBioswe = 0

/-! PR0 from FREG2. -/

theorem toNat_and_blocks (x : U32) : (x &&& 0x1FFF).toNat = x.toNat % 2 ^ 13 := by
  have hmask : (0x1FFF : U32).toNat = 2 ^ 13 - 1 := rfl
  rw [BitVec.toNat_and, hmask, Nat.and_two_pow_sub_one_eq_mod]

/-- A number of blocks survives the way through a byte address. -/
theorem blocks_round_trip (x : U32) : (x <<< 12) >>> 12 &&& 0x1FFF = x &&& 0x1FFF := by
  apply BitVec.eq_of_toNat_eq
  rw [toNat_and_blocks, toNat_and_blocks, BitVec.toNat_ushiftRight, BitVec.toNat_shiftLeft, Nat.shiftLeft_eq,
    Nat.shiftRight_eq_div_pow]
  omega

theorem prBase_meBase (freg2 : U32) : prBase (meBase freg2) = freg2 &&& fregBaseMask := by
  rw [prBase, meBase, blocks_round_trip, fregBaseMask, BitVec.and_assoc, BitVec.and_self]

theorem prLimit_meLimit (freg2 : U32) : prLimit (meLimit freg2) = freg2 &&& fregLimitMask := by
  have hoffset : (0xFFF : U32) >>> 12 = 0#32 := by decide
  have hfield := toNat_and_field 16 13 (by decide) freg2
  have hmask : BitVec.ofNat 32 ((2 ^ 13 - 1) * 2 ^ 16) = fregLimitMask := by decide
  rw [hmask] at hfield
  rw [prLimit, meLimit, BitVec.ushiftRight_or_distrib, hoffset, BitVec.or_zero, blocks_round_trip, fregLimitShift]
  apply BitVec.eq_of_toNat_eq
  rw [BitVec.toNat_shiftLeft, toNat_and_blocks, BitVec.toNat_ushiftRight, Nat.shiftLeft_eq, Nat.shiftRight_eq_div_pow,
    hfield]
  omega

theorem pr0Value_eq (freg2 : U32) :
    pr0Value freg2 = freg2 &&& fregBaseMask ||| freg2 &&& fregLimitMask ||| bPrWpEnable := by
  rw [pr0Value, prValue, prBase_meBase, prLimit_meLimit]
  exact BitVec.or_zero

theorem extract_pr0Value (freg2 : U32) (k : Nat) (hk : k = 0 ∨ k = 16) :
    (pr0Value freg2).extractLsb' k 13 = freg2.extractLsb' k 13 := by
  have hmasks : (fregBaseMask ||| fregLimitMask).extractLsb' k 13 = BitVec.allOnes 13 ∧
      bPrWpEnable.extractLsb' k 13 = 0#13 := by
    rcases hk with rfl | rfl <;> decide
  rw [pr0Value_eq, ← BitVec.and_or_distrib_left, BitVec.extractLsb'_or, BitVec.extractLsb'_and, hmasks.1, hmasks.2,
    BitVec.or_zero, BitVec.and_allOnes]

theorem protectsMe_pr0Value (freg2 : U32) : ProtectsMe (pr0Value freg2) freg2 := by
  constructor
  · have hwp : bPrWpEnable.getLsbD 15 = true := by decide
    refine (and_bit_ne_zero_iff_getLsbD 15 (by decide) _).mpr ?_
    rw [pr0Value_eq, BitVec.getLsbD_or, hwp, Bool.or_true]
  · intro addr hme
    rw [InProtectedRange, extract_pr0Value freg2 0 (Or.inl rfl), extract_pr0Value freg2 16 (Or.inr rfl)]
    exact hme

/-! What the steps do to the registers. -/

namespace Chipset

variable (c : Chipset)

/-- Different registers are at different addresses. -/
theorem spiBar_add_ne {r r' : U32} (h : r ≠ r') : c.spiBar + r ≠ c.spiBar + r' := fun heq => h (add_left_cancel heq)

theorem mmioRead32_hsfs : c.mmioRead32 (c.spiBar + rHsfs) = c.hsfs := if_pos rfl

theorem mmioRead32_freg2 : c.mmioRead32 (c.spiBar + rFreg2Me) = c.freg2 := by
  rw [mmioRead32, if_neg (c.spiBar_add_ne (by decide)), if_pos rfl]

theorem mmioRead32_pr0 : c.mmioRead32 (c.spiBar + rPr0) = c.pr0 := by
  rw [mmioRead32, if_neg (c.spiBar_add_ne (by decide)), if_neg (c.spiBar_add_ne (by decide)), if_pos rfl]

theorem mmioWrite32_pr0 (value : U32) :
    c.mmioWrite32 hw (c.spiBar + rPr0) value = { c with pr0 := if Flockdn c then c.pr0 else value } := by
  rw [mmioWrite32, if_neg (c.spiBar_add_ne (by decide))]
  by_cases hlock : Flockdn c
  · rw [if_neg (fun h => h.2 hlock), if_pos hlock]
  · rw [if_pos ⟨rfl, hlock⟩, if_neg hlock]

theorem mmioOr32_hsfs (bits : U32) :
    c.mmioOr32 hw (c.spiBar + rHsfs) bits = { c with hsfs := latchHsfs hw c.hsfs (c.hsfs ||| bits) } := by
  rw [mmioOr32, mmioRead32_hsfs, mmioWrite32, if_pos rfl]

end Chipset

namespace LockdownState

variable {s : LockdownState} {p : Prop} [Decidable p] {message : LockdownLog}

/-- No error was logged. -/
def Clean (s : LockdownState) : Prop := ∀ message ∈ s.log, message.isError = false

theorem clean_chipset (c : Chipset) : ({ s with chipset := c } : LockdownState).Clean ↔ s.Clean := Iff.rfl

theorem clean_say : (s.say message).Clean ↔ s.Clean ∧ message.isError = false := by
  simp only [Clean, say, List.forall_mem_append, List.forall_mem_singleton]

theorem say_chipset : (s.say message).chipset = s.chipset := rfl

theorem sayIf_chipset : (s.sayIf p message).chipset = s.chipset := by
  unfold sayIf
  split
  · rfl
  · rfl

theorem clean_sayIf : (s.sayIf p message).Clean ↔ s.Clean ∧ (p → message.isError = false) := by
  unfold sayIf
  split
  · rename_i hp
    rw [clean_say]
    exact and_congr_right fun _ => ⟨fun h _ => h, fun h => h hp⟩
  · rename_i hp
    exact ⟨fun h => ⟨h, fun hp' => absurd hp' hp⟩, And.left⟩

end LockdownState

section Steps

variable {spiBar : U32} {s : LockdownState}

theorem programPr0_chipset (hbar : spiBar = s.chipset.spiBar) :
    (programPr0 hw spiBar s).chipset =
      { s.chipset with pr0 := if Flockdn s.chipset then s.chipset.pr0 else pr0Value s.chipset.freg2 } := by
  subst hbar
  simp only [programPr0, LockdownState.sayIf_chipset, Chipset.mmioRead32_freg2, Chipset.mmioWrite32_pr0]

/-- The verification of PR0 tells whether it took. -/
theorem programPr0_clean (hbar : spiBar = s.chipset.spiBar) (hclean : (programPr0 hw spiBar s).Clean) :
    s.Clean ∧ (programPr0 hw spiBar s).chipset.pr0 = pr0Value s.chipset.freg2 := by
  subst hbar
  rw [programPr0_chipset hw rfl]
  simp only [programPr0, LockdownState.sayIf_chipset, LockdownState.clean_sayIf, LockdownState.clean_chipset,
    Chipset.mmioRead32_freg2, Chipset.mmioWrite32_pr0] at hclean
  obtain ⟨⟨hs, -⟩, hverify⟩ := hclean
  refine ⟨hs, ?_⟩
  by_contra hne
  -- the register is read back at the same address: RCBA has not moved
  have hread := Chipset.mmioRead32_pr0
    { s.chipset with pr0 := if Flockdn s.chipset then s.chipset.pr0 else pr0Value s.chipset.freg2 }
  exact absurd (hverify (fun h => hne (hread.symm.trans h))) (by decide)

theorem assertFlockdn_chipset (hbar : spiBar = s.chipset.spiBar) :
    (assertFlockdn hw spiBar s).chipset =
      { s.chipset with
        hsfs := if Flockdn s.chipset then s.chipset.hsfs
          else Chipset.latchHsfs hw s.chipset.hsfs (s.chipset.hsfs ||| bHsfsFlockdn) } := by
  subst hbar
  have hread := s.chipset.mmioRead32_hsfs
  unfold assertFlockdn
  by_cases hlock : Flockdn s.chipset
  · have hbit : s.chipset.hsfs &&& bHsfsFlockdn ≠ 0 := hlock
    rw [hread, if_neg hbit, if_pos hlock, LockdownState.say_chipset]
  · have hbit : s.chipset.hsfs &&& bHsfsFlockdn = 0 := not_not.mp hlock
    rw [hread, if_pos hbit, if_neg hlock, LockdownState.say_chipset]
    dsimp only
    rw [Chipset.mmioOr32_hsfs]

theorem assertFlockdn_clean (hclean : (assertFlockdn hw spiBar s).Clean) : s.Clean := by
  unfold assertFlockdn at hclean
  split at hclean
  · exact (LockdownState.clean_say.mp hclean).1
  · exact (LockdownState.clean_say.mp hclean).1

theorem lockBiosCntl_chipset :
    (lockBiosCntl hw s).chipset =
      s.chipset.writeBiosCntl hw (s.chipset.biosCntl &&& ~~~bBiosCntlBioswe ||| bBiosCntlBle ||| bBiosCntlSmmBwp) := rfl

theorem lockBiosCntl_clean (hclean : (lockBiosCntl hw s).Clean) :
    s.Clean ∧ (lockBiosCntl hw s).chipset.biosCntl &&& bBiosCntlBle ≠ 0 ∧
      (lockBiosCntl hw s).chipset.biosCntl &&& bBiosCntlSmmBwp ≠ 0 := by
  rw [lockBiosCntl_chipset]
  unfold lockBiosCntl at hclean
  dsimp only at hclean
  rw [LockdownState.clean_say] at hclean
  obtain ⟨hs, hmessage⟩ := hclean
  refine ⟨hs, ?_⟩
  by_contra hnot
  rw [if_neg hnot] at hmessage
  exact absurd hmessage (by decide)

theorem record_chipset (ok : Bool) (write : ScriptWrite) : (record ok write s).chipset = s.chipset := by
  cases ok <;> rfl

theorem record_clean {ok : Bool} {write : ScriptWrite} (hclean : (record ok write s).Clean) : s.Clean := by
  cases ok with
  | false => exact (LockdownState.clean_say.mp hclean).1
  | true => exact (LockdownState.clean_say.mp hclean).1

theorem recordS3_chipset (freg2 hsfs : U32) (s3Write : Nat → Bool) :
    (recordS3 spiBar freg2 hsfs s3Write s).chipset = s.chipset := by
  unfold recordS3
  dsimp only
  rw [record_chipset, record_chipset, record_chipset]

theorem recordS3_clean {freg2 hsfs : U32} {s3Write : Nat → Bool}
    (hclean : (recordS3 spiBar freg2 hsfs s3Write s).Clean) : s.Clean :=
  record_clean (record_clean (record_clean hclean))

end Steps

/-! The registers after a success. -/

/-- The registers the driver leaves behind when RCBA is enabled. -/
def afterLockdown (c : Chipset) : Chipset :=
  { c with
    pr0 := if Flockdn c then c.pr0 else pr0Value c.freg2
    hsfs := if Flockdn c then c.hsfs else Chipset.latchHsfs hw c.hsfs (c.hsfs ||| bHsfsFlockdn)
    biosCntl := (c.biosCntl &&& hw.stuck) |||
      ((c.biosCntl &&& ~~~bBiosCntlBioswe ||| bBiosCntlBle ||| bBiosCntlSmmBwp) &&& ~~~hw.stuck) }

variable (s3 : Option (Nat → Bool)) (c : Chipset)

/-- The state when RCBA is read. -/
def beforeRcba : LockdownState :=
  LockdownState.say { chipset := c } (if s3.isNone then .s3ProtocolMissing else .s3ProtocolFound)

/-- Steps 2 to 5. -/
def lockdownSteps : LockdownState :=
  lockBiosCntl hw (assertFlockdn hw c.spiBar (programPr0 hw c.spiBar (beforeRcba s3 c)))

theorem enforceSpiLockdown_disabled (hrcba : c.rcba &&& bRcbaEnable = 0) :
    enforceSpiLockdown hw s3 c = (.deviceError, (beforeRcba s3 c).say .rcbaDisabled) := if_pos hrcba

/-- With RCBA enabled the rest only records and logs. -/
theorem enforceSpiLockdown_enabled (hrcba : c.rcba &&& bRcbaEnable ≠ 0) :
    ∃ s, enforceSpiLockdown hw s3 c = (.success, s) ∧ s.chipset = (lockdownSteps hw s3 c).chipset ∧
      (s.Clean → (lockdownSteps hw s3 c).Clean) := by
  cases s3 with
  | none => exact ⟨lockdownSteps hw none c, if_neg hrcba, rfl, id⟩
  | some s3Write => exact ⟨_, if_neg hrcba, recordS3_chipset _ _ s3Write, recordS3_clean⟩

/-- The only error is that of RCBA. -/
theorem enforceSpiLockdown_status :
    (enforceSpiLockdown hw s3 c).1 = .success ↔ c.rcba &&& bRcbaEnable ≠ 0 := by
  by_cases hrcba : c.rcba &&& bRcbaEnable = 0
  · have hne : EfiStatus.deviceError ≠ .success := by decide
    rw [enforceSpiLockdown_disabled hw s3 c hrcba]
    exact ⟨fun h => absurd h hne, fun h => absurd hrcba h⟩
  · obtain ⟨s, hrun, -, -⟩ := enforceSpiLockdown_enabled hw s3 c hrcba
    rw [hrun]
    exact ⟨fun _ => hrcba, fun _ => rfl⟩

theorem lockdownSteps_chipset : (lockdownSteps hw s3 c).chipset = afterLockdown hw c := by
  have hbar : c.spiBar = (beforeRcba s3 c).chipset.spiBar := rfl
  have hpr0 := programPr0_chipset hw hbar
  have hbar' : c.spiBar = (programPr0 hw c.spiBar (beforeRcba s3 c)).chipset.spiBar := by
    rw [hpr0]
    rfl
  have hlock := assertFlockdn_chipset hw hbar'
  rw [lockdownSteps, lockBiosCntl_chipset, hlock, hpr0]
  rfl

/-! Bits of the final registers. -/

theorem flockdn_afterLockdown : Flockdn (afterLockdown hw c) := by
  by_cases hlock : Flockdn c
  · have hhsfs : (afterLockdown hw c).hsfs = c.hsfs := if_pos hlock
    rw [Flockdn, hhsfs]
    exact hlock
  · have hhsfs : (afterLockdown hw c).hsfs = Chipset.latchHsfs hw c.hsfs (c.hsfs ||| bHsfsFlockdn) := if_neg hlock
    have hbit : bHsfsFlockdn.getLsbD 15 = true := by decide
    rw [Flockdn, hhsfs]
    refine (and_bit_ne_zero_iff_getLsbD 15 (by decide) _).mpr ?_
    simp only [Chipset.latchHsfs, BitVec.getLsbD_or, BitVec.getLsbD_and, hbit, Bool.or_true, Bool.and_true]

theorem protectsMe_afterLockdown_iff :
    ProtectsMe (afterLockdown hw c).pr0 c.freg2 ↔ (Flockdn c → ProtectsMe c.pr0 c.freg2) := by
  by_cases hlock : Flockdn c
  · have hpr0 : (afterLockdown hw c).pr0 = c.pr0 := if_pos hlock
    rw [hpr0]
    exact ⟨fun h _ => h, fun h => h hlock⟩
  · have hpr0 : (afterLockdown hw c).pr0 = pr0Value c.freg2 := if_neg hlock
    rw [hpr0]
    exact ⟨fun _ h => absurd h hlock, fun _ => protectsMe_pr0Value c.freg2⟩

/-- A bit that the driver sets is set, unless it is stuck at 0. -/
theorem biosCntl_set_iff {k : Nat} (hk : k = 1 ∨ k = 5) :
    (afterLockdown hw c).biosCntl &&& BitVec.ofNat 8 (2 ^ k) ≠ 0 ↔
      (hw.stuck &&& BitVec.ofNat 8 (2 ^ k) ≠ 0 → c.biosCntl &&& BitVec.ofNat 8 (2 ^ k) ≠ 0) := by
  have hlt : k < 8 := by omega
  have hset : (bBiosCntlBle.getLsbD k || bBiosCntlSmmBwp.getLsbD k) = true := by
    rcases hk with rfl | rfl <;> decide
  rw [and_bit_ne_zero_iff_getLsbD k hlt, and_bit_ne_zero_iff_getLsbD k hlt, and_bit_ne_zero_iff_getLsbD k hlt]
  simp only [afterLockdown, BitVec.getLsbD_or, BitVec.getLsbD_and, BitVec.getLsbD_not, Bool.or_assoc, hset,
    Bool.or_true, hlt, decide_true, Bool.true_and]
  cases c.biosCntl.getLsbD k <;> cases hw.stuck.getLsbD k <;> decide

theorem bioswe_afterLockdown : (afterLockdown hw c).biosCntl &&& bBiosCntlBioswe = 0 := by
  have hfree : hw.stuck.getLsbD 0 = false :=
    Bool.eq_false_iff.mpr fun h => (and_bit_ne_zero_iff_getLsbD 0 (by decide) _).mpr h hw.bioswe_free
  have hbioswe : bBiosCntlBioswe.getLsbD 0 = true := by decide
  have hble : bBiosCntlBle.getLsbD 0 = false := by decide
  have hsmmBwp : bBiosCntlSmmBwp.getLsbD 0 = false := by decide
  by_contra hset
  have hbit := (and_bit_ne_zero_iff_getLsbD 0 (by decide) _).mp hset
  simp only [afterLockdown, BitVec.getLsbD_or, BitVec.getLsbD_and, BitVec.getLsbD_not, hfree, hbioswe, hble, hsmmBwp,
    Bool.and_false, Bool.not_true, Bool.false_and, Bool.or_false] at hbit
  exact Bool.false_ne_true hbit

/-- What a success does not decide. -/
theorem locked_afterLockdown_iff :
    Locked (afterLockdown hw c) ↔
      (Flockdn c → ProtectsMe c.pr0 c.freg2) ∧
        (hw.stuck &&& bBiosCntlBle ≠ 0 → c.biosCntl &&& bBiosCntlBle ≠ 0) ∧
        (hw.stuck &&& bBiosCntlSmmBwp ≠ 0 → c.biosCntl &&& bBiosCntlSmmBwp ≠ 0) := by
  have hble := biosCntl_set_iff hw c (k := 1) (Or.inl rfl)
  have hsmmBwp := biosCntl_set_iff hw c (k := 5) (Or.inr rfl)
  constructor
  · intro hlocked
    exact ⟨(protectsMe_afterLockdown_iff hw c).mp hlocked.pr0, hble.mp hlocked.ble, hsmmBwp.mp hlocked.smmBwp⟩
  · rintro ⟨hpr0, hb, hs⟩
    exact ⟨(protectsMe_afterLockdown_iff hw c).mpr hpr0, flockdn_afterLockdown hw c, hble.mpr hb, hsmmBwp.mpr hs,
      bioswe_afterLockdown hw c⟩

theorem enforceSpiLockdown_chipset (hsuccess : (enforceSpiLockdown hw s3 c).1 = .success) :
    (enforceSpiLockdown hw s3 c).2.chipset = afterLockdown hw c := by
  obtain ⟨s, hrun, hchipset, -⟩ :=
    enforceSpiLockdown_enabled hw s3 c ((enforceSpiLockdown_status hw s3 c).mp hsuccess)
  rw [hrun, hchipset, lockdownSteps_chipset]

/-- **What a success is worth.** Over every chipset, latch rules and S3 protocol: after `EFI_SUCCESS` the
    flash is locked exactly if PR0 protected the ME region already when FLOCKDN was set before, and
    BLE and SMM_BWP were not stuck at 0. -/
theorem spi_lockdown_iff (hsuccess : (enforceSpiLockdown hw s3 c).1 = .success) :
    Locked (enforceSpiLockdown hw s3 c).2.chipset ↔
      (Flockdn c → ProtectsMe c.pr0 c.freg2) ∧
        (hw.stuck &&& bBiosCntlBle ≠ 0 → c.biosCntl &&& bBiosCntlBle ≠ 0) ∧
        (hw.stuck &&& bBiosCntlSmmBwp ≠ 0 → c.biosCntl &&& bBiosCntlSmmBwp ≠ 0) := by
  rw [enforceSpiLockdown_chipset hw s3 c hsuccess]
  exact locked_afterLockdown_iff hw c

/-- A board with RCBA at `0xFED1C000`, an ME region from 1 MB to 6 MB and nothing latched. -/
def freshBoard : Chipset := { rcba := 0xFED1C001, freg2 := 0x05FF0100, pr0 := 0, hsfs := 0, biosCntl := 0x01 }

/-- No bit is stuck; HSFS keeps what is written. -/
def freeBits : LatchRules := { stuck := 0, bioswe_free := by decide, hsfsStatus := fun _ new => new }

theorem spi_lockdown_fresh :
    (enforceSpiLockdown freeBits none freshBoard).1 = .success ∧
      Locked (enforceSpiLockdown freeBits none freshBoard).2.chipset := by
  have hsuccess : (enforceSpiLockdown freeBits none freshBoard).1 = .success := by decide +kernel
  refine ⟨hsuccess, (spi_lockdown_iff freeBits none freshBoard hsuccess).mpr ⟨?_, ?_, ?_⟩⟩
  · exact fun h => absurd h (by decide)
  · exact fun h => absurd h (by decide)
  · exact fun h => absurd h (by decide)

/-- A board whose firmware set FLOCKDN and left PR0 empty: the driver succeeds, the boot goes on, and
    PR0 protects nothing. -/
theorem spi_success_unlocked :
    (sentinelSmmDxeEntry freeBits none { freshBoard with hsfs := 0x8000 }).1 = .returned .success ∧
      (enforceSpiLockdown freeBits none { freshBoard with hsfs := 0x8000 }).1 = .success ∧
      ¬Locked (enforceSpiLockdown freeBits none { freshBoard with hsfs := 0x8000 }).2.chipset := by
  have hpr0 : (enforceSpiLockdown freeBits none { freshBoard with hsfs := 0x8000 }).2.chipset.pr0 = 0 := by
    decide +kernel
  refine ⟨by decide +kernel, by decide +kernel, fun hlocked => ?_⟩
  have hwp := hlocked.pr0.1
  rw [hpr0] at hwp
  exact hwp (by decide)

/-! What the driver knows. -/

/-- A run that logs no error leaves the flash locked: the driver knows, and does not say. -/
theorem locked_of_no_error (hclean : (enforceSpiLockdown hw s3 c).2.Clean) :
    Locked (enforceSpiLockdown hw s3 c).2.chipset := by
  by_cases hrcba : c.rcba &&& bRcbaEnable = 0
  · rw [enforceSpiLockdown_disabled hw s3 c hrcba] at hclean
    exact absurd (LockdownState.clean_say.mp hclean).2 (by decide)
  · obtain ⟨s, hrun, hchipset, hsteps⟩ := enforceSpiLockdown_enabled hw s3 c hrcba
    rw [hrun] at hclean ⊢
    obtain ⟨hlock, hble, hsmmBwp⟩ := lockBiosCntl_clean hw (hsteps hclean)
    have hbar : c.spiBar = (beforeRcba s3 c).chipset.spiBar := rfl
    obtain ⟨-, hpr0⟩ := programPr0_clean hw hbar (assertFlockdn_clean hw hlock)
    rw [programPr0_chipset hw hbar] at hpr0
    have hafter := lockdownSteps_chipset hw s3 c
    rw [lockdownSteps] at hafter
    rw [hafter] at hble hsmmBwp
    rw [hchipset, lockdownSteps_chipset]
    have hprotects : ProtectsMe (afterLockdown hw c).pr0 c.freg2 := by
      have hvalue : (afterLockdown hw c).pr0 = pr0Value c.freg2 := hpr0
      rw [hvalue]
      exact protectsMe_pr0Value c.freg2
    exact ⟨hprotects, flockdn_afterLockdown hw c, hble, hsmmBwp, bioswe_afterLockdown hw c⟩

/-- The boot goes on exactly with RCBA enabled, whatever was logged. -/
theorem sentinelSmmDxeEntry_returns_iff :
    (sentinelSmmDxeEntry hw s3 c).1 = .returned .success ↔ c.rcba &&& bRcbaEnable ≠ 0 := by
  rw [← enforceSpiLockdown_status hw s3 c]
  unfold sentinelSmmDxeEntry
  by_cases hstatus : (enforceSpiLockdown hw s3 c).1 = .success
  · simp [hstatus]
  · simp [hstatus]

end SentinelStack.Smm
