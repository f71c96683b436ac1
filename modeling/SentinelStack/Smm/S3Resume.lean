import SentinelStack.Lib.Run
import SentinelStack.Smm.SpiLockdown

/- The S3 boot script of the SPI lockdown (step 6 of `EnforceSpiLockdown`): the three
   writes recorded at boot, replayed on a resume.

   At boot nothing is assumed of the registers (`BootHardware`): a write may take or
   not. `bootScript` is what the driver records there, and the script of the model
   over `Chipset` is the special case (`enforceSpiLockdown_script`). On resume the
   registers obey the latch, and the firmware that replays the script has set up RCBA
   again. Main result: `s3_resume_relocks`. -/
namespace SentinelStack.Smm
open SentinelStack.Lib

/-! What is recorded. -/

/-- The registers of a boot as the driver reaches them. -/
structure BootHardware (σ : Type) where
  rcba : σ → U32
  mmioRead32 : σ → U32 → U32
  mmioWrite32 : σ → U32 → U32 → σ
  biosCntl : σ → U8
  writeBiosCntl : σ → U8 → σ

/-- The LPC bridge's registers in the address format of the boot script. -/
def lpcScriptAddress (register : U32) : U64 := efiBootScriptPciAddress 0 31 0 (register.setWidth 64)

section Boot

variable {σ : Type} (boot : BootHardware σ)

/-- The base of the SPI registers, from RCBA. -/
def BootHardware.spiBar (c : σ) : U32 := (boot.rcba c &&& rcbaAddrMask) + spibarOffset

/-- FREG2 as the driver reads it. -/
def BootHardware.freg2 (c : σ) : U32 := boot.mmioRead32 c (boot.spiBar c + rFreg2Me)

/-- `MmioOr32(SpiBar + R_HSFS, B_HSFS_FLOCKDN)` unless it is set, and the last value read. -/
def BootHardware.latchFlockdn (spiBar : U32) (c : σ) : σ × U32 :=
  let hsfs := boot.mmioRead32 c (spiBar + rHsfs)
  if hsfs &&& bHsfsFlockdn = 0 then
    let c := boot.mmioWrite32 c (spiBar + rHsfs) (boot.mmioRead32 c (spiBar + rHsfs) ||| bHsfsFlockdn)
    (c, boot.mmioRead32 c (spiBar + rHsfs))
  else (c, hsfs)

/-- The script `EnforceSpiLockdown` records when the S3 protocol is found: `s3Write` are the outcomes
    of its three recordings. There is none with RCBA disabled. -/
def bootScript (s3Write : Nat → Bool) (c : σ) : Option (List ScriptWrite) :=
  if boot.rcba c &&& bRcbaEnable = 0 then none
  else
    let spiBar := boot.spiBar c
    let freg2 := boot.freg2 c
    let c := boot.mmioWrite32 c (spiBar + rPr0) (pr0Value freg2)
    let (c, hsfs) := boot.latchFlockdn spiBar c
    let c := boot.writeBiosCntl c (boot.biosCntl c &&& ~~~bBiosCntlBioswe ||| bBiosCntlBle ||| bBiosCntlSmmBwp)
    some ((if s3Write 0 then [.pciConfigWrite8 (lpcScriptAddress rBiosCntl) (boot.biosCntl c)] else []) ++
      (if s3Write 1 then [.memWrite32 ((spiBar + rPr0).setWidth 64) (pr0Value freg2)] else []) ++
      (if s3Write 2 then [.memWrite32 ((spiBar + rHsfs).setWidth 64) (hsfs ||| bHsfsFlockdn)] else []))

/-- With all three recorded: BIOS_CNTL, PR0 and HSFS, in this order, with FLOCKDN whatever was read. -/
theorem bootScript_all {s3Write : Nat → Bool} {c : σ} (hrcba : boot.rcba c &&& bRcbaEnable ≠ 0)
    (hrecorded : s3Write 0 = true ∧ s3Write 1 = true ∧ s3Write 2 = true) :
    ∃ biosCntl hsfs, bootScript boot s3Write c =
      some [.pciConfigWrite8 (lpcScriptAddress rBiosCntl) biosCntl,
        .memWrite32 ((boot.spiBar c + rPr0).setWidth 64) (pr0Value (boot.freg2 c)),
        .memWrite32 ((boot.spiBar c + rHsfs).setWidth 64) (hsfs ||| bHsfsFlockdn)] := by
  obtain ⟨h0, h1, h2⟩ := hrecorded
  rw [bootScript, if_neg hrcba, h0, h1, h2]
  exact ⟨_, _, rfl⟩

end Boot

/-- The registers of the chipset model. -/
def chipsetHardware (hw : LatchRules) : BootHardware Chipset where
  rcba := Chipset.rcba
  mmioRead32 := Chipset.mmioRead32
  mmioWrite32 := Chipset.mmioWrite32 hw
  biosCntl := Chipset.biosCntl
  writeBiosCntl := Chipset.writeBiosCntl hw

theorem chipsetHardware_spiBar (hw : LatchRules) (c : Chipset) : (chipsetHardware hw).spiBar c = c.spiBar := by
  rw [BootHardware.spiBar, Chipset.spiBar, chipsetHardware]

theorem chipsetHardware_freg2 (hw : LatchRules) (c : Chipset) :
    (chipsetHardware hw).freg2 c = c.mmioRead32 (c.spiBar + rFreg2Me) := by
  rw [BootHardware.freg2, chipsetHardware_spiBar, chipsetHardware]

theorem chipsetHardware_mmioWrite32 (hw : LatchRules) :
    (chipsetHardware hw).mmioWrite32 = Chipset.mmioWrite32 hw := rfl

theorem sayIf_script {s : LockdownState} {p : Prop} [Decidable p] {message : LockdownLog} :
    (s.sayIf p message).script = s.script := by
  unfold LockdownState.sayIf
  split
  · rfl
  · rfl

theorem record_script (ok : Bool) (write : ScriptWrite) (s : LockdownState) :
    (record ok write s).script = s.script ++ if ok then [write] else [] := by
  cases ok with
  | false => exact (List.append_nil _).symm
  | true => rfl

section Driver

variable (hw : LatchRules) (spiBar : U32) (s : LockdownState)

theorem programPr0_effect :
    (programPr0 hw spiBar s).chipset =
        s.chipset.mmioWrite32 hw (spiBar + rPr0) (pr0Value (s.chipset.mmioRead32 (spiBar + rFreg2Me))) ∧
      (programPr0 hw spiBar s).script = s.script := by
  unfold programPr0
  dsimp only
  rw [LockdownState.sayIf_chipset, sayIf_script]
  dsimp only
  rw [LockdownState.sayIf_chipset, sayIf_script]
  exact ⟨rfl, rfl⟩

theorem assertFlockdn_effect :
    ((assertFlockdn hw spiBar s).chipset, (assertFlockdn hw spiBar s).chipset.mmioRead32 (spiBar + rHsfs)) =
        (chipsetHardware hw).latchFlockdn spiBar s.chipset ∧
      (assertFlockdn hw spiBar s).script = s.script := by
  unfold assertFlockdn BootHardware.latchFlockdn
  by_cases hclear : s.chipset.mmioRead32 (spiBar + rHsfs) &&& bHsfsFlockdn = 0
  · have hclear' : (chipsetHardware hw).mmioRead32 s.chipset (spiBar + rHsfs) &&& bHsfsFlockdn = 0 := hclear
    rw [if_pos hclear, if_pos hclear']
    exact ⟨rfl, rfl⟩
  · have hclear' : ¬ (chipsetHardware hw).mmioRead32 s.chipset (spiBar + rHsfs) &&& bHsfsFlockdn = 0 := hclear
    rw [if_neg hclear, if_neg hclear']
    exact ⟨rfl, rfl⟩

end Driver

/-- The script of the driver on the chipset model. -/
theorem enforceSpiLockdown_script (hw : LatchRules) (s3Write : Nat → Bool) (c : Chipset) :
    (enforceSpiLockdown hw (some s3Write) c).2.script = (bootScript (chipsetHardware hw) s3Write c).getD [] := by
  by_cases hrcba : c.rcba &&& bRcbaEnable = 0
  · have hnone : bootScript (chipsetHardware hw) s3Write c = none := if_pos hrcba
    rw [enforceSpiLockdown_disabled hw _ c hrcba, hnone]
    rfl
  · have hchipset : (beforeRcba (some s3Write) c).chipset = c := rfl
    obtain ⟨hpr0, hscript⟩ := programPr0_effect hw c.spiBar (beforeRcba (some s3Write) c)
    obtain ⟨hlatch, hscript'⟩ := assertFlockdn_effect hw c.spiBar (programPr0 hw c.spiBar (beforeRcba (some s3Write) c))
    rw [hpr0, hchipset] at hlatch
    -- the run, by steps, with nothing recorded before the last
    have hrun : enforceSpiLockdown hw (some s3Write) c =
        (.success, recordS3 c.spiBar (c.mmioRead32 (c.spiBar + rFreg2Me))
          ((assertFlockdn hw c.spiBar (programPr0 hw c.spiBar (beforeRcba (some s3Write) c))).chipset.mmioRead32
            (c.spiBar + rHsfs)) s3Write (lockdownSteps hw (some s3Write) c)) := if_neg hrcba
    have hempty : (lockdownSteps hw (some s3Write) c).script = [] := hscript'.trans hscript
    have henabled : ¬ (chipsetHardware hw).rcba c &&& bRcbaEnable = 0 := hrcba
    rw [hrun, bootScript, if_neg henabled, chipsetHardware_spiBar, chipsetHardware_freg2, chipsetHardware_mmioWrite32]
    dsimp only
    rw [← hlatch, Option.getD_some, recordS3]
    dsimp only
    rw [record_script, record_script, record_script, hempty, List.nil_append, lpcScriptAddress, lockdownSteps,
      lockBiosCntl_chipset]
    rfl

/-! The replay. -/

def rRcba : U32 := 0xF0

/-- The register with one of its bytes replaced. -/
def setByte (register : U32) (k : Nat) (value : U8) : U32 :=
  (register &&& ~~~((0xFF : U32) <<< (8 * k))) ||| (value.setWidth 32 <<< (8 * k))

/-- A write by the boot script or, later, by any software: BIOS_CNTL and RCBA are in the
    configuration space of the LPC bridge, the SPI registers in the memory below 4 GB. -/
def replayWrite (hw : LatchRules) (c : Chipset) : ScriptWrite → Chipset
  | .pciConfigWrite8 addr value =>
    if addr = lpcScriptAddress rBiosCntl then c.writeBiosCntl hw value
    else
      match (List.range 4).find? fun k => addr == lpcScriptAddress (rRcba + BitVec.ofNat 32 k) with
      | some k => { c with rcba := setByte c.rcba k value }
      | none => c
  | .memWrite32 addr value =>
    if addr = (addr.setWidth 32).setWidth 64 then c.mmioWrite32 hw (addr.setWidth 32) value else c

section Latch

variable (hw : LatchRules) {c : Chipset}

theorem flockdn_latchHsfs {old new : U32} (h : (old ||| new).getLsbD 15 = true) :
    (Chipset.latchHsfs hw old new) &&& bHsfsFlockdn ≠ 0 := by
  have hbit : bHsfsFlockdn.getLsbD 15 = true := by decide
  refine (and_bit_ne_zero_iff_getLsbD 15 (by decide) _).mpr ?_
  rw [Chipset.latchHsfs, BitVec.getLsbD_or, BitVec.getLsbD_and (x := old ||| new), h, hbit]
  exact Bool.or_true _

theorem flockdn_mmioWrite32 (h : Flockdn c) (addr value : U32) :
    Flockdn (c.mmioWrite32 hw addr value) ∧ (c.mmioWrite32 hw addr value).pr0 = c.pr0 := by
  have hset : c.hsfs.getLsbD 15 = true := (and_bit_ne_zero_iff_getLsbD 15 (by decide) _).mp h
  unfold Chipset.mmioWrite32
  split
  · refine ⟨flockdn_latchHsfs hw ?_, rfl⟩
    rw [BitVec.getLsbD_or, hset, Bool.true_or]
  · rw [if_neg fun hwritable => hwritable.2 h]
    exact ⟨h, rfl⟩

/-- Under FLOCKDN no write moves PR0 or FLOCKDN. -/
theorem flockdn_replayWrite (h : Flockdn c) (write : ScriptWrite) :
    Flockdn (replayWrite hw c write) ∧ (replayWrite hw c write).pr0 = c.pr0 := by
  cases write with
  | pciConfigWrite8 addr value =>
    unfold replayWrite
    dsimp only
    split
    · exact ⟨h, rfl⟩
    · split
      · exact ⟨h, rfl⟩
      · exact ⟨h, rfl⟩
  | memWrite32 addr value =>
    unfold replayWrite
    dsimp only
    split
    · exact flockdn_mmioWrite32 hw h _ _
    · exact ⟨h, rfl⟩

theorem flockdn_run (h : Flockdn c) (writes : List ScriptWrite) :
    Flockdn (run (replayWrite hw) c writes) ∧ (run (replayWrite hw) c writes).pr0 = c.pr0 := by
  apply run_inv (I := fun c' => Flockdn c' ∧ c'.pr0 = c.pr0) _ ⟨h, rfl⟩
  rintro c' write ⟨hlock, hpr0⟩
  obtain ⟨hlock', hpr0'⟩ := flockdn_replayWrite hw hlock write
  exact ⟨hlock', hpr0'.trans hpr0⟩

theorem replayWrite_mmio (addr value : U32) :
    replayWrite hw c (.memWrite32 (addr.setWidth 64) value) = c.mmioWrite32 hw addr value := by
  have haddr : (addr.setWidth 64).setWidth 32 = addr := by
    apply BitVec.eq_of_toNat_eq
    rw [BitVec.toNat_setWidth, BitVec.toNat_setWidth]
    omega
  unfold replayWrite
  dsimp only
  rw [haddr, if_pos rfl]

theorem replayWrite_biosCntl (value : U8) :
    replayWrite hw c (.pciConfigWrite8 (lpcScriptAddress rBiosCntl) value) = c.writeBiosCntl hw value := by
  unfold replayWrite
  exact if_pos rfl

/-- The script on registers without FLOCKDN. -/
theorem replay_script (hclear : ¬ Flockdn c) (biosCntl : U8) (pr0 hsfs : U32) :
    run (replayWrite hw) c [.pciConfigWrite8 (lpcScriptAddress rBiosCntl) biosCntl,
        .memWrite32 ((c.spiBar + rPr0).setWidth 64) pr0,
        .memWrite32 ((c.spiBar + rHsfs).setWidth 64) hsfs] =
      ⟨c.rcba, c.freg2, pr0, Chipset.latchHsfs hw c.hsfs hsfs, (c.writeBiosCntl hw biosCntl).biosCntl⟩ := by
  have hclear' : ¬ Flockdn (c.writeBiosCntl hw biosCntl) := hclear
  have hpr0 := (c.writeBiosCntl hw biosCntl).mmioWrite32_pr0 hw pr0
  rw [if_neg hclear'] at hpr0
  rw [run_cons, run_cons, run_cons, run_nil, replayWrite_biosCntl, replayWrite_mmio, replayWrite_mmio]
  have hbar : (c.writeBiosCntl hw biosCntl).spiBar = c.spiBar := rfl
  rw [hbar] at hpr0
  rw [hpr0]
  exact if_pos rfl

end Latch

/-- **A resume locks the flash again.** For every boot with RCBA enabled and the three writes
    recorded, whatever took at boot, and every register state at resume with FLOCKDN clear and
    RCBA set up as at boot: after the replay FLOCKDN is set and PR0 write-protects exactly the
    region of the FREG2 read at boot, and no later writes change that. -/
theorem s3_resume_relocks {σ : Type} (boot : BootHardware σ) (c : σ) (hrcba : boot.rcba c &&& bRcbaEnable ≠ 0)
    (s3Write : Nat → Bool) (hrecorded : s3Write 0 = true ∧ s3Write 1 = true ∧ s3Write 2 = true)
    (hw : LatchRules) (resume : Chipset) (hclear : ¬ Flockdn resume) (hrestored : resume.rcba = boot.rcba c) :
    ∃ script, bootScript boot s3Write c = some script ∧
      Flockdn (run (replayWrite hw) resume script) ∧
      (run (replayWrite hw) resume script).pr0 &&& bPrWpEnable ≠ 0 ∧
      (∀ addr, InProtectedRange (run (replayWrite hw) resume script).pr0 addr ↔ InMeRegion (boot.freg2 c) addr) ∧
      ∀ later, Flockdn (run (replayWrite hw) (run (replayWrite hw) resume script) later) ∧
        (run (replayWrite hw) (run (replayWrite hw) resume script) later).pr0 =
          (run (replayWrite hw) resume script).pr0 := by
  obtain ⟨biosCntl, hsfs, hscript⟩ := bootScript_all boot hrcba hrecorded
  have hbar : boot.spiBar c = resume.spiBar := by rw [BootHardware.spiBar, Chipset.spiBar, hrestored]
  rw [hbar] at hscript
  refine ⟨_, hscript, ?_⟩
  rw [replay_script hw hclear biosCntl (pr0Value (boot.freg2 c)) (hsfs ||| bHsfsFlockdn)]
  -- the value written has FLOCKDN, whatever HSFS was at boot
  have hbit : (resume.hsfs ||| (hsfs ||| bHsfsFlockdn)).getLsbD 15 = true := by
    have hflockdn : bHsfsFlockdn.getLsbD 15 = true := by decide
    rw [BitVec.getLsbD_or, BitVec.getLsbD_or, hflockdn, Bool.or_true, Bool.or_true]
  have hlock := flockdn_latchHsfs hw hbit
  refine ⟨hlock, (protectsMe_pr0Value (boot.freg2 c)).1, ?_, flockdn_run hw hlock⟩
  · intro addr
    rw [InProtectedRange, extract_pr0Value _ 0 (Or.inl rfl), extract_pr0Value _ 16 (Or.inr rfl), InMeRegion]

/-- Firmware that set FLOCKDN before the driver ran and left PR0 empty. -/
def lockedBoard : Chipset := { freshBoard with hsfs := 0x8000 }

/-- At boot PR0 does not take; after a resume it protects the region. -/
theorem s3_resume_relocks_locked_board :
    (afterLockdown freeBits lockedBoard).pr0 = 0 ∧
      ∃ script, bootScript (chipsetHardware freeBits) (fun _ => true) lockedBoard = some script ∧
        Flockdn (run (replayWrite freeBits) freshBoard script) ∧
        ∀ addr, InProtectedRange (run (replayWrite freeBits) freshBoard script).pr0 addr ↔
          InMeRegion ((chipsetHardware freeBits).freg2 lockedBoard) addr := by
  obtain ⟨script, hscript, hlock, -, hrange, -⟩ := s3_resume_relocks (chipsetHardware freeBits) lockedBoard (by decide)
    (fun _ => true) ⟨rfl, rfl, rfl⟩ freeBits freshBoard (by decide) rfl
  exact ⟨by decide, script, hscript, hlock, hrange⟩

end SentinelStack.Smm
