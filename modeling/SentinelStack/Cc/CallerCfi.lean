import SentinelStack.Cc.Hooks
import SentinelStack.Cc.Provenance
import SentinelStack.Lib.BoundedMap

/- The call-stack CFI table across modules. `cfi_policy` is keyed by the offset of
   a site in its module, the loader fills it from the main binary, and
   `sentinel_check` looks the offset up whatever module the site is in.

   Main results: `cfi_isolated_iff` — with everything but `cfi_policy` fixed, two
   tables give the same decision on every stack if and only if they agree on the
   callers allowed at the site's offset, or the call is decided before the table is
   read; `unshared_offset_isolated` — so the main binary's entries do not count
   where it has none for that offset. -/
namespace SentinelStack.Cc
open SentinelStack.Lib

/-- The decision: the event type of the denial, if there is one. -/
def CheckResult.decision (r : CheckResult) : Option AuditAction := r.deny.map (·.action)

namespace CfiRange

def Admits (range : CfiRange) (callerOffset : U64) : Prop := range.start ≤ callerOffset ∧ callerOffset ≤ range.stop

instance (range : CfiRange) (callerOffset : U64) : Decidable (range.Admits callerOffset) :=
  inferInstanceAs (Decidable (_ ∧ _))

end CfiRange

/-- The two lookups constrain the caller in the same way. -/
def CfiAgree : Option CfiRange → Option CfiRange → Prop
  | none, none => True
  | some range, some range' => ∀ callerOffset, range.Admits callerOffset ↔ range'.Admits callerOffset
  | _, _ => False

/-- A tracked thread at a site that the trie resolves to a module. -/
structure Attributed (m : BpfMaps) (t : Thread) (site : U64) (mod : VmaValue) : Prop where
  tracked : m.targetPid t.tgid ≠ none
  rip : t.rip = some (site + 2)
  resolved : vmaLookup m.vma site = some mod

/-- The checks of an attributed site that come before the stack walks: a decision, if they reach one. -/
def earlyDecision (c : BpfConfig) (m : BpfMaps) (t : Thread) (syscallNr : U32) (site : U64) (mod : VmaValue) :
    Option (Option AuditAction) :=
  if c.cgroupFilter ∧ m.cgroup t.cgroupId = none then some none
  else if c.learnMode then some none
  else
    match m.policyRegistry mod.moduleId with
    | none => some (some .block)
    | some policyMap =>
      match policyMap (site - mod.baseAddr) with
      | none => some (some .block)
      | some rule =>
        if exceedsThreadLimit m t syscallNr then some (some .block)
        else if NrMismatch rule syscallNr then some (some .nrMismatch)
        else none

def Thread.withStacks (t : Thread) (shadow caller : StackWalk) : Thread := { t with shadow := shadow, caller := caller }

def BpfMaps.withCfi (m : BpfMaps) (cfi : U64 → Option CfiRange) : BpfMaps := { m with cfiPolicy := cfi }

/-! The decision as a function of the table and the stacks. -/

/-- What the last check makes of the table's entry. -/
def callerDecision (range : Option CfiRange) (caller : StackWalk) (baseAddr : U64) : Option AuditAction :=
  match range with
  | none => none
  | some range => if caller.ret ≥ 16 ∧ range.Admits (caller.words 1 - baseAddr) then none else some .cfiFail

def badFrame (m : BpfMaps) (shadow : StackWalk) : Bool :=
  (shadowFrames shadow).any fun frame => (vmaLookup m.vma frame).isNone

/-- What the stacks make of a call that reaches them. -/
def stackDecision (c : BpfConfig) (m : BpfMaps) (range : Option CfiRange) (shadow caller : StackWalk) (baseAddr : U64) :
    Option AuditAction :=
  if c.shadowCfi ∧ badFrame m shadow then some .shadowFail
  else callerDecision range caller baseAddr

section decision
variable {c : BpfConfig} {m : BpfMaps} {t : Thread} {syscallNr : U32} {site : U64} {mod : VmaValue}

theorem checkCaller_decision {event : AuditAction → AuditEvent} (hevent : ∀ a, (event a).action = a)
    (offset baseAddr : U64) (audit : List AuditEvent) :
    (checkCaller c m t event offset baseAddr audit).decision = callerDecision (m.cfiPolicy offset) t.caller baseAddr := by
  have hfail : some (event .cfiFail).action = some AuditAction.cfiFail := congrArg some (hevent _)
  unfold checkCaller callerDecision
  cases m.cfiPolicy offset with
  | none => rfl
  | some range =>
    dsimp only
    by_cases hret : t.caller.ret ≥ 16
    · rw [if_pos hret]
      by_cases hin : range.start ≤ t.caller.words 1 - baseAddr ∧ t.caller.words 1 - baseAddr ≤ range.stop
      · have hboth : t.caller.ret ≥ 16 ∧ range.Admits (t.caller.words 1 - baseAddr) := ⟨hret, hin⟩
        rw [if_pos hin, if_pos hboth]
        rfl
      · have hnot : ¬ (t.caller.ret ≥ 16 ∧ range.Admits (t.caller.words 1 - baseAddr)) := fun h => hin h.2
        rw [if_neg hin, if_neg hnot]
        exact hfail
    · have hnot : ¬ (t.caller.ret ≥ 16 ∧ range.Admits (t.caller.words 1 - baseAddr)) := fun h => hret h.1
      rw [if_neg hret, if_neg hnot]
      exact hfail

/-- The walk of the shadow stack comes first and does not read the table. -/
theorem checkStacks_decision {event : AuditAction → AuditEvent} (hevent : ∀ a, (event a).action = a)
    (offset baseAddr : U64) :
    (checkStacks c m t event offset baseAddr).decision =
      stackDecision c m (m.cfiPolicy offset) t.shadow t.caller baseAddr := by
  have hframes : badFrame m t.shadow = true ↔ ¬ ∀ frame ∈ shadowFrames t.shadow, (vmaLookup m.vma frame).isSome := by
    simp [badFrame]
  unfold checkStacks stackDecision
  by_cases hwalk : c.shadowCfi = true ∧ shadowFrames t.shadow ≠ []
  · rw [if_pos hwalk]
    by_cases hall : ∀ frame ∈ shadowFrames t.shadow, (vmaLookup m.vma frame).isSome
    · have hpass : ¬ (c.shadowCfi = true ∧ badFrame m t.shadow = true) :=
        fun hbad => hframes.mp hbad.2 hall
      rw [if_pos hall, if_neg hpass]
      exact checkCaller_decision hevent _ _ _
    · have hbad : c.shadowCfi = true ∧ badFrame m t.shadow = true :=
        ⟨hwalk.1, hframes.mpr hall⟩
      rw [if_neg hall, if_pos hbad]
      exact congrArg some (hevent _)
  · -- a walk with no frame to check has no bad one
    have hpass : ¬ (c.shadowCfi = true ∧ badFrame m t.shadow = true) := by
      intro ⟨hcfi, hbad⟩
      refine hwalk ⟨hcfi, fun hnil => hframes.mp hbad ?_⟩
      rw [hnil]
      exact List.forall_mem_nil _
    rw [if_neg hwalk, if_neg hpass]
    exact checkCaller_decision hevent _ _ _

/-- **The decision of an attributed call**: the early checks', or else the stacks'. -/
theorem Attributed.decision_eq (h : Attributed m t site mod) :
    (sentinelCheck c m t syscallNr).decision =
      (earlyDecision c m t syscallNr site mod).getD
        (stackDecision c m (m.cfiPolicy (site - mod.baseAddr)) t.shadow t.caller mod.baseAddr) := by
  obtain ⟨v, hv⟩ := Option.ne_none_iff_exists'.mp h.tracked
  unfold sentinelCheck earlyDecision
  rw [hv, h.rip]
  dsimp only
  rw [BitVec.add_sub_cancel, h.resolved]
  dsimp only
  split
  · rfl
  · unfold checkModule
    dsimp only
    split
    · rfl
    · cases m.policyRegistry mod.moduleId with
      | none => rfl
      | some policyMap =>
        dsimp only
        cases policyMap (site - mod.baseAddr) with
        | none => rfl
        | some rule =>
          dsimp only
          split
          · rfl
          · split
            · rfl
            · exact checkStacks_decision (fun _ => rfl) _ _

end decision

/-! Isolation. -/

theorem callerDecision_failed (r : CfiRange) (baseAddr : U64) :
    callerDecision (some r) ⟨0, fun _ => 0⟩ baseAddr = some .cfiFail := by
  have hshort : ¬ ((0 : Int) ≥ 16 ∧ r.Admits (0 - baseAddr)) := fun h => absurd h.1 (by decide)
  unfold callerDecision
  dsimp only
  rw [if_neg hshort]

theorem callerDecision_walked (r : CfiRange) (x baseAddr : U64) :
    callerDecision (some r) ⟨16, fun _ => x + baseAddr⟩ baseAddr = none ↔ r.Admits x := by
  unfold callerDecision
  dsimp only
  rw [BitVec.add_sub_cancel]
  by_cases hin : r.Admits x
  · simp [hin]
  · simp [hin]

/-- The tables constrain the caller alike if and only if no stack tells them apart. -/
theorem cfiAgree_iff (range range' : Option CfiRange) (baseAddr : U64) :
    CfiAgree range range' ↔ ∀ caller, callerDecision range caller baseAddr = callerDecision range' caller baseAddr := by
  match range, range' with
  | none, none => exact ⟨fun _ _ => rfl, fun _ => trivial⟩
  | none, some r =>
    refine ⟨False.elim, fun h => ?_⟩
    have heq := h ⟨0, fun _ => 0⟩
    rw [callerDecision_failed] at heq
    cases heq
  | some r, none =>
    refine ⟨False.elim, fun h => ?_⟩
    have heq := h ⟨0, fun _ => 0⟩
    rw [callerDecision_failed] at heq
    cases heq
  | some r, some r' =>
    constructor
    · intro hagree caller
      unfold callerDecision
      dsimp only
      rw [if_congr (and_congr_right fun _ => hagree _) rfl rfl]
    · intro h x
      rw [← callerDecision_walked r x baseAddr, ← callerDecision_walked r' x baseAddr, h]

/-- **Isolation of CFI entries.** For every configuration, state of the other maps, site of a module
    and tracked thread there: two tables give the same decision on every stack, if and only if the
    call is decided before the stacks are walked, or the tables constrain the callers at the offset
    of the site in its module alike. -/
theorem cfi_isolated_iff (c : BpfConfig) (m : BpfMaps) (cfi cfi' : U64 → Option CfiRange) (t : Thread) (syscallNr : U32)
    (site : U64) (mod : VmaValue) (h : Attributed m t site mod) :
    (∀ shadow caller, (sentinelCheck c (m.withCfi cfi) (t.withStacks shadow caller) syscallNr).decision =
        (sentinelCheck c (m.withCfi cfi') (t.withStacks shadow caller) syscallNr).decision) ↔
      (earlyDecision c m t syscallNr site mod = none →
        CfiAgree (cfi (site - mod.baseAddr)) (cfi' (site - mod.baseAddr))) := by
  have hdec : ∀ table shadow caller,
      (sentinelCheck c (m.withCfi table) (t.withStacks shadow caller) syscallNr).decision =
        (earlyDecision c m t syscallNr site mod).getD
          (stackDecision c m (table (site - mod.baseAddr)) shadow caller mod.baseAddr) := by
    intro table shadow caller
    have h' : Attributed (m.withCfi table) (t.withStacks shadow caller) site mod := ⟨h.tracked, h.rip, h.resolved⟩
    exact h'.decision_eq
  simp only [hdec]
  cases earlyDecision c m t syscallNr site mod with
  | some d => exact ⟨fun _ hnone => absurd hnone (Option.some_ne_none d), fun _ _ _ => rfl⟩
  | none =>
    rw [cfiAgree_iff _ _ mod.baseAddr]
    constructor
    · intro hall _ caller
      -- an empty shadow walk leaves the decision to the caller check
      have hpass : ¬ (c.shadowCfi = true ∧ badFrame m ⟨0, fun _ => 0⟩ = true) := by
        simp [badFrame, shadowFrames]
      have heq : stackDecision c m (cfi (site - mod.baseAddr)) ⟨0, fun _ => 0⟩ caller mod.baseAddr =
          stackDecision c m (cfi' (site - mod.baseAddr)) ⟨0, fun _ => 0⟩ caller mod.baseAddr := hall _ caller
      unfold stackDecision at heq
      rwa [if_neg hpass, if_neg hpass] at heq
    · intro hagree shadow caller
      show stackDecision c m (cfi (site - mod.baseAddr)) shadow caller mod.baseAddr =
        stackDecision c m (cfi' (site - mod.baseAddr)) shadow caller mod.baseAddr
      unfold stackDecision
      rw [hagree rfl]

/-- `cfi_policy` after the loader's writes. -/
def installedCfi (writes : List (U64 × CfiRange)) : U64 → Option CfiRange :=
  (BoundedMap.empty.putAll writes : BoundedMap U64 CfiRange 1024).lookup

theorem installedCfi_eq_none {writes : List (U64 × CfiRange)} {offset : U64} (h : ∀ w ∈ writes, w.1 ≠ offset) :
    installedCfi writes offset = none := by
  have hputs : ∀ m : BoundedMap U64 CfiRange 1024, (m.putAll writes).lookup offset = m.lookup offset := by
    induction writes with
    | nil => exact fun _ => rfl
    | cons w ws ih =>
      intro m
      show ((m.put w.1 w.2).putAll ws).lookup offset = _
      rw [ih (fun w' hw' => h w' (List.mem_cons_of_mem _ hw')), BoundedMap.lookup_put_ne (h w List.mem_cons_self).symm]
  exact hputs BoundedMap.empty

/-- Entries of the main binary at other offsets do not count: none of what the loader installs from
    one binary or another changes what becomes of the call. -/
theorem unshared_offset_isolated (c : BpfConfig) (m : BpfMaps) (t : Thread) (syscallNr : U32) (site : U64) (mod : VmaValue)
    (hat : Attributed m t site mod) {writes writes' : List (U64 × CfiRange)}
    (h : ∀ w ∈ writes, w.1 ≠ site - mod.baseAddr) (h' : ∀ w ∈ writes', w.1 ≠ site - mod.baseAddr) :
    (sentinelCheck c (m.withCfi (installedCfi writes)) t syscallNr).decision =
      (sentinelCheck c (m.withCfi (installedCfi writes')) t syscallNr).decision := by
  have hstep : ∀ ws : List (U64 × CfiRange), (∀ w ∈ ws, w.1 ≠ site - mod.baseAddr) →
      (sentinelCheck c (m.withCfi (installedCfi ws)) t syscallNr).decision =
        (earlyDecision c m t syscallNr site mod).getD (stackDecision c m none t.shadow t.caller mod.baseAddr) := by
    intro ws hws
    have hat' : Attributed (m.withCfi (installedCfi ws)) t site mod := ⟨hat.tracked, hat.rip, hat.resolved⟩
    rw [← installedCfi_eq_none hws]
    exact hat'.decision_eq
  rw [hstep writes h, hstep writes' h']

/-- A main binary whose function at 0x2000 is the only caller it allows at its site 0x1000. -/
def cfiBinary : FileContent :=
  .elf ⟨[], true, [.ofBytes (ascii ".sentinel") (onePolicyEntry 0x10),
    .ofBytes (ascii ".sentinel_cfi") (cfiRecordBytes 0x10 0x20)]⟩

/-- libc at 0x7f0000000000, whose policy admits the site at its own offset 0x1000. -/
def libcSiteMaps : BpfMaps :=
  { staticMaps with
    vma := vmaAfter [⟨0x7f0000000000, moduleLibc, 0x7f0000000000⟩]
    policyRegistry := fun id => if id = moduleLibc then some (fun k => if k = 0x1000 then some 1 else none) else none }

def libcThread : Thread :=
  ⟨42, 42, 0, some 0x7f0000001002, ⟨0, fun _ => 0⟩, ⟨16, fun _ => 0x7f0000005000⟩⟩

theorem libcThread_attributed : Attributed libcSiteMaps libcThread 0x7f0000001000 ⟨moduleLibc, 0x7f0000000000⟩ :=
  ⟨by decide, by decide +kernel, by decide +kernel⟩

/-- The syscall of libc passes, and is denied once the main binary's entry is installed. -/
theorem main_entry_denies_libc :
    cfiEntries cfiBinary = [(0x1000, ⟨0x2000, 0x3000⟩)] ∧
      (sentinelCheck ⟨false, false, false, false, false⟩ (libcSiteMaps.withCfi (installedCfi [])) libcThread 1).decision =
        none ∧
      (sentinelCheck ⟨false, false, false, false, false⟩ (libcSiteMaps.withCfi (installedCfi (cfiEntries cfiBinary)))
        libcThread 1).decision = some .cfiFail := by
  decide +kernel

theorem cfi_isolated_iff_libc :
    Attributed libcSiteMaps libcThread 0x7f0000001000 ⟨moduleLibc, 0x7f0000000000⟩ ∧
      ∀ shadow caller,
        (sentinelCheck ⟨false, false, false, false, false⟩ (libcSiteMaps.withCfi fun _ => none)
            (libcThread.withStacks shadow caller) 1).decision =
          (sentinelCheck ⟨false, false, false, false, false⟩
            (libcSiteMaps.withCfi fun k => if k = 0x2000 then some ⟨0, 1⟩ else none)
            (libcThread.withStacks shadow caller) 1).decision := by
  refine ⟨libcThread_attributed, ?_⟩
  exact (cfi_isolated_iff ⟨false, false, false, false, false⟩ libcSiteMaps (fun _ => none)
    (fun k => if k = 0x2000 then some ⟨0, 1⟩ else none) libcThread 1 0x7f0000001000 ⟨moduleLibc, 0x7f0000000000⟩
    libcThread_attributed).mpr fun _ => trivial

end SentinelStack.Cc
