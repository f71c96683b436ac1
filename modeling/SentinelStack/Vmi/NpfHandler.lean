import SentinelStack.Vmi.NptGuard

/- Fault handling (`npf_handler.c`, `cpuid_handler.c`): a write fault is
   classified by the bounds check, let through when it is collateral, allowed or
   authorised, and otherwise signalled to the bridge.

   Main result: `bounds_law_iff_wellPlaced` — for every table, session and
   address, the bounds check answers by the regions' bytes and every write into
   a critical region is signalled as malicious, exactly when the first region on
   the page of the address is one the answer is right for. -/
namespace SentinelStack.Vmi
open SentinelStack.Lib

def syscallTableSize : U64 := 8 * 512

/-- The address space or process whose next map update was announced through CPUID. -/
structure AuthState where
  authorizedCr3 : U64
  authorizedPid : U32
  deriving DecidableEq, Repr

/-- A call into the bridge. -/
inductive Signal where
  | malicious (pid : U32) (reason : CStr)
  | suspicious (pid : U32) (reason : CStr)
  deriving DecidableEq, Repr

inductive FaultClassification where
  | ignore
  | legitimate
  | suspicious
  | malicious
  deriving DecidableEq, Repr

/-- The source's placeholder: the pid is not known. -/
def identifyMaliciousPid : U32 := 0

def npfHandlerIsAuthorized (auth : AuthState) (cr3 : U64) (pid : U32) : Bool :=
  (cr3 ≠ 0 ∧ auth.authorizedCr3 = cr3) ∨ (pid ≠ 0 ∧ auth.authorizedPid = pid)

def npfHandlerClearAuthorized : AuthState := ⟨0, 0⟩

def hekiMagic : U32 := 0x48454B49

/-- A CPUID exit: the magic leaf with the active nonce authorises the address space. -/
def npfHandlerCpuidIntercept (auth : AuthState) (hekiActiveNonce eax ecx : U32) (cr3 : U64) : AuthState :=
  if eax = hekiMagic then
    if ecx = hekiActiveNonce ∧ hekiActiveNonce ≠ 0 then ⟨cr3, identifyMaliciousPid⟩ else auth
  else auth

/-- `%lx`. -/
def fmtHex (x : U64) : CStr := (Nat.toDigits 16 x.toNat).map fun c => BitVec.ofNat 8 c.toNat

/-- `allowPatch` is the value of `VMI_ALLOW_LEGIT_KERNEL_PATCH`. -/
def isLegitimateFault (allowPatch : Option CStr) (regionName : CStr) : Bool :=
  allowPatch = some (ascii "1") ∧ (regionName = ascii "sys_call_table" ∨ regionName = ascii "kernel_text")

structure Classified where
  classification : FaultClassification
  regionName : CStr
  critical : Bool
  isCollateral : Bool
  deriving DecidableEq, Repr

/-- `gpa` is in the syscall table the session knows of. -/
def SyscallTarget (s : VmiSession) (gpa : U64) : Prop :=
  s.syscallTableGpa ≠ 0 ∧ gpa ≥ s.syscallTableGpa ∧ gpa < s.syscallTableGpa + syscallTableSize

instance (s : VmiSession) (gpa : U64) : Decidable (SyscallTarget s gpa) := inferInstanceAs (Decidable (_ ∧ _))

/-- The end of `classify_fault`, for a write that is not collateral. -/
def classifyWrite (allowPatch : Option CStr) (regionName : CStr) (critical : Bool) : Classified where
  classification :=
    if isLegitimateFault allowPatch regionName then .legitimate
    else if critical then .malicious else .suspicious
  regionName := regionName
  critical := critical
  isCollateral := false

def classifyFault (s : VmiSession) (allowPatch : Option CStr) (regions : List GuardRegion) (gpa : U64)
    (writeAccess : Bool) : Classified :=
  if ¬ writeAccess then ⟨.ignore, ascii "none", false, false⟩
  else
    match nptGuardCheckBounds gpa regions with
    | .collateral r => ⟨.legitimate, r.name, r.critical, true⟩
    | .direct r => classifyWrite allowPatch r.name r.critical
    | .unknown =>
      if SyscallTarget s gpa then classifyWrite allowPatch (ascii "sys_call_table") true
      else classifyWrite allowPatch (ascii "protected_page") false

/-- The signal for a hostile write; `reason` is cut to its 128-byte buffer. -/
def hostileSignal (s : VmiSession) (gpa : U64) (c : Classified) : Signal :=
  if SyscallTarget s gpa then
    .malicious identifyMaliciousPid (strncpyz 128 (ascii "syscall_table_write: GPA=0x" ++ fmtHex gpa))
  else
    let reason := strncpyz 128 (c.regionName ++ ascii "_write: GPA=0x" ++ fmtHex gpa)
    if c.classification = .malicious ∨ c.critical then .malicious identifyMaliciousPid reason
    else .suspicious identifyMaliciousPid reason

/-- The signal sent, if any, and the authorisation left: an authorised write uses it up. -/
def npfHandlerProcess (s : VmiSession) (auth : AuthState) (allowPatch : Option CStr) (regions : List GuardRegion)
    (gpa : U64) (writeAccess : Bool) : Option Signal × AuthState :=
  if ¬ writeAccess then (none, auth)
  else
    let c := classifyFault s allowPatch regions gpa writeAccess
    if c.classification = .ignore then (none, auth)
    else if c.isCollateral then (none, auth)
    else if c.classification = .legitimate then (none, auth)
    else if npfHandlerIsAuthorized auth s.kernelPgd identifyMaliciousPid then (none, npfHandlerClearAuthorized)
    else (some (hostileSignal s gpa c), auth)

/-! What the handler should do, and when it does. -/

/-- The bounds check answers by the bytes of all regions. -/
def BoundsLaw (regions : List GuardRegion) (g : U64) : Prop :=
  ((nptGuardCheckBounds g regions).code = 1 ↔ ∃ r ∈ regions, r.Contains g) ∧
  ((nptGuardCheckBounds g regions).code = 2 ↔
    (∃ r ∈ regions, r.OnPage g) ∧ ¬ ∃ r ∈ regions, r.Contains g) ∧
  ((nptGuardCheckBounds g regions).code = 0 ↔
    ¬ (∃ r ∈ regions, r.OnPage g) ∧ ¬ ∃ r ∈ regions, r.Contains g)

def SignalsMalicious (o : Option Signal) : Prop := ∃ pid reason, o = some (.malicious pid reason)

/-- With no authorisation pending and no override set, a write into a critical region is
    signalled as malicious. -/
def CriticalWriteSignalled (s : VmiSession) (regions : List GuardRegion) (g : U64) : Prop :=
  (∃ r ∈ regions, r.critical ∧ r.Contains g) →
    SignalsMalicious (npfHandlerProcess s npfHandlerClearAuthorized none regions g true).1

/-- The first region on the page of `g` stands for all of them: there is one whenever some
    region touches the page, it contains `g` when any region does, and where a critical
    region contains `g` it is critical itself or `g` is in the session's syscall table. -/
structure WellPlaced (s : VmiSession) (regions : List GuardRegion) (g : U64) : Prop where
  seen : ∀ r ∈ regions, r.OnPage g → (firstOnPage regions g).isSome
  direct : ∀ r ∈ regions, r.Contains g → ∀ r₀, firstOnPage regions g = some r₀ → r₀.Contains g
  critical : ∀ r ∈ regions, r.critical → r.Contains g →
    ∀ r₀, firstOnPage regions g = some r₀ → r₀.critical ∨ SyscallTarget s g

theorem firstOnPage_mem {regions : List GuardRegion} {g : U64} {r : GuardRegion}
    (h : firstOnPage regions g = some r) : r ∈ regions ∧ r.Seen ∧ r.OnPage g :=
  ⟨List.mem_of_find?_eq_some h, by simpa using List.find?_some h⟩

/-- A write the bounds check calls direct is signalled, as malicious when the region is
    critical or the syscall table is hit. -/
theorem signalsMalicious_direct {s : VmiSession} {regions : List GuardRegion} {g : U64} {r : GuardRegion}
    (h : nptGuardCheckBounds g regions = .direct r) :
    SignalsMalicious (npfHandlerProcess s npfHandlerClearAuthorized none regions g true).1 ↔
      r.critical ∨ SyscallTarget s g := by
  have hauth : npfHandlerIsAuthorized npfHandlerClearAuthorized s.kernelPgd identifyMaliciousPid = false := by
    simp only [npfHandlerIsAuthorized, npfHandlerClearAuthorized, identifyMaliciousPid]
    simp only [ne_eq, not_true, false_and, or_false, decide_eq_false_iff_not, not_and]
    exact fun h0 h1 => h0 h1.symm
  have hclass : classifyFault s none regions g true = classifyWrite none r.name r.critical := by
    simp [classifyFault, h]
  have hproc : (npfHandlerProcess s npfHandlerClearAuthorized none regions g true).1 =
      some (hostileSignal s g (classifyWrite none r.name r.critical)) := by
    simp only [npfHandlerProcess, hclass, hauth]
    cases hc : r.critical <;> simp [classifyWrite, isLegitimateFault]
  rw [hproc, SignalsMalicious, hostileSignal]
  by_cases ht : SyscallTarget s g
  · simp [ht]
  · cases hc : r.critical <;> simp [ht, classifyWrite, isLegitimateFault]

section law
variable {regions : List GuardRegion} (hfit : ∀ r ∈ regions, r.Fits) (g : U64)
include hfit

theorem boundsLaw_iff : BoundsLaw regions g ↔
    (∀ r ∈ regions, r.OnPage g → (firstOnPage regions g).isSome) ∧
    (∀ r ∈ regions, r.Contains g → ∀ r₀, firstOnPage regions g = some r₀ → r₀.Contains g) := by
  rw [BoundsLaw, checkBounds_eq hfit]
  cases hfirst : firstOnPage regions g with
  | none =>
    simp only [BoundsResult.code, Option.isSome_none]
    constructor
    · rintro ⟨_, _, h0⟩
      exact ⟨fun r hr hp => absurd ⟨r, hr, hp⟩ (h0.mp trivial).1, fun _ _ _ _ h => by cases h⟩
    · rintro ⟨hseen, -⟩
      have hnone : ¬ ∃ r ∈ regions, r.OnPage g := fun ⟨r, hr, hp⟩ => by cases hseen r hr hp
      have hnot : ¬ ∃ r ∈ regions, r.Contains g := fun ⟨r, hr, hc⟩ => hnone ⟨r, hr, hc.onPage⟩
      simp [hnone, hnot]
  | some r₀ =>
    obtain ⟨hmem, _, hpage⟩ := firstOnPage_mem hfirst
    by_cases hc : r₀.Contains g
    · have hex : ∃ r ∈ regions, r.Contains g := ⟨r₀, hmem, hc⟩
      simp [BoundsResult.code, hc, hex]
    · have hex : ∃ r ∈ regions, r.OnPage g := ⟨r₀, hmem, hpage⟩
      simp only [hc, if_false, BoundsResult.code]
      constructor
      · rintro ⟨_, h2, _⟩
        refine ⟨fun _ _ _ => rfl, fun r hr hrc => absurd ⟨r, hr, hrc⟩ (h2.mp trivial).2⟩
      · rintro ⟨-, hd⟩
        have hnot : ¬ ∃ r ∈ regions, r.Contains g := fun ⟨r, hr, hrc⟩ => hc (hd r hr hrc r₀ rfl)
        simp [hex, hnot]

/-- **When the bounds check and the handler are right.** For every table whose regions stay
    inside the address space, every session and every address. -/
theorem bounds_law_iff_wellPlaced (s : VmiSession) :
    BoundsLaw regions g ∧ CriticalWriteSignalled s regions g ↔ WellPlaced s regions g := by
  have key : ∀ r₀, firstOnPage regions g = some r₀ → r₀.Contains g →
      (SignalsMalicious (npfHandlerProcess s npfHandlerClearAuthorized none regions g true).1 ↔
        r₀.critical ∨ SyscallTarget s g) := by
    intro r₀ hfirst hc
    apply signalsMalicious_direct
    rw [checkBounds_eq hfit, hfirst]
    simp [hc]
  rw [boundsLaw_iff hfit]
  constructor
  · rintro ⟨⟨hseen, hdirect⟩, hsig⟩
    refine ⟨hseen, hdirect, fun r hr hcrit hc r₀ hfirst => ?_⟩
    exact (key r₀ hfirst (hdirect r hr hc r₀ hfirst)).mp (hsig ⟨r, hr, hcrit, hc⟩)
  · rintro ⟨hseen, hdirect, hcritical⟩
    refine ⟨⟨hseen, hdirect⟩, fun ⟨r, hr, hcrit, hc⟩ => ?_⟩
    obtain ⟨r₀, hfirst⟩ := Option.isSome_iff_exists.mp (hseen r hr hc.onPage)
    exact (key r₀ hfirst (hdirect r hr hc r₀ hfirst)).mpr (hcritical r hr hcrit hc r₀ hfirst)

end law

/-- A session before the syscall table was found. -/
def idleSession : VmiSession where
  memslots := []
  qemuPid := 0
  syscallTableGpa := 0
  syscallTableGva := 0
  nptArmed := false
  kaslrOffset := 0
  kernelPgd := 0

/-- Two registrations on one page: a small map, and a critical one behind it. -/
def onePageTable : GuardTable where
  regions := [newRegion (ascii "pids") 0x1000 0x10 false (by decide),
    newRegion (ascii "rules") 0x1800 0x100 true (by decide)]
  count_le := by decide

/-- A write to the first byte of the critical region is taken for collateral. -/
theorem critical_write_unsignalled :
    ¬ ∀ (s : VmiSession) (table : GuardTable) (g : U64), (∀ r ∈ table.regions, r.Fits) →
      BoundsLaw table.regions g ∧ CriticalWriteSignalled s table.regions g := by
  intro h
  have hsig := (h idleSession onePageTable 0x1800 (by decide)).2 (by decide)
  obtain ⟨pid, reason, heq⟩ := hsig
  have hnone : (npfHandlerProcess idleSession npfHandlerClearAuthorized none onePageTable.regions 0x1800 true).1 =
      none := by decide
  rw [hnone] at heq
  cases heq

theorem bounds_law_one_region :
    BoundsLaw [newRegion (ascii "rules") 0x1800 0x100 true (by decide)] 0x1800 ∧
      CriticalWriteSignalled idleSession [newRegion (ascii "rules") 0x1800 0x100 true (by decide)] 0x1800 :=
  (bounds_law_iff_wellPlaced (by decide) 0x1800 idleSession).mpr
    ⟨by decide, by decide, by decide⟩

end SentinelStack.Vmi
