import SentinelStack.Cc.VmaLoader

/- The enforcer (`sentinel_check` in `sentinel.bpf.c`): the decision on one
   syscall of one thread, from the maps the loader filled.

   A result is the call of `deny_action`, if there is one, the audit events
   emitted besides it and the observation recorded in learn mode.

   Main result: `allowed_is_attributed` — with enforcement on, a syscall of a
   tracked thread that is not denied comes from a site that a policy map admits,
   relative to the one base the loader recorded for that map's module. -/
namespace SentinelStack.Cc
open SentinelStack.Lib

/-- The `EVENT_` constants, in the order of their codes. -/
inductive AuditAction where
  | allow
  | block
  | cfiOk
  | cfiFail
  | nrMismatch
  | forkTrack
  | fexitOk
  | dlopenExt
  | permissive
  | learn
  | libDeny
  | shadowOk
  | shadowFail
  | fallback
  | kobjDeny
  deriving DecidableEq, Repr

structure AuditEvent where
  tgid : U32
  tid : U32
  syscallRip : U64
  offset : U64
  moduleId : U32
  syscallNr : U32
  action : AuditAction
  deriving DecidableEq, Repr

/-- The constants the loader sets before the program is loaded. -/
structure BpfConfig where
  auditMode : Bool
  learnMode : Bool
  shadowCfi : Bool
  systemWide : Bool
  cgroupFilter : Bool

structure BpfMaps where
  targetPid : U32 → Option U32
  fallbackPolicy : U32 → Option U32
  cgroup : U64 → Option U32
  vma : VmaMap
  threadPolicy : U32 × U32 → Option U32
  policyRegistry : U32 → Option (U64 → Option U64)
  cfiPolicy : U64 → Option CfiRange

/-- What `bpf_get_stack` returned, and the words of the buffer. -/
structure StackWalk where
  ret : Int
  words : Nat → U64

/-- The thread at the hook: `rip` is missing when it has no `pt_regs`, `shadow` and `caller`
    are the two stack walks. -/
structure Thread where
  tgid : U32
  tid : U32
  cgroupId : U64
  rip : Option U64
  shadow : StackWalk
  caller : StackWalk

structure CheckResult where
  deny : Option AuditEvent
  audit : List AuditEvent
  learned : Option (U64 × U64)
  deriving DecidableEq, Repr

namespace CheckResult

def pass : CheckResult := ⟨none, [], none⟩
def denied (e : AuditEvent) : CheckResult := ⟨some e, [], none⟩
def audited (es : List AuditEvent) : CheckResult := ⟨none, es, none⟩

end CheckResult

def maxShadowDepth : Nat := 8

/-- The frames of the shadow-stack walk that are checked: all but the first, as far as the
    walk got. -/
def shadowFrames (walk : StackWalk) : List U64 :=
  let nframes := if walk.ret > 0 then (walk.ret / 8).toNat else 0
  ((List.range maxShadowDepth).filter fun i => 1 ≤ i ∧ i < nframes).map walk.words

/-- The last step: the caller's address against the range of the site, where it has one. -/
def checkCaller (c : BpfConfig) (m : BpfMaps) (t : Thread) (event : AuditAction → AuditEvent) (offset baseAddr : U64)
    (audit : List AuditEvent) : CheckResult :=
  match m.cfiPolicy offset with
  | none => .audited (audit ++ if c.auditMode then [event .allow] else [])
  | some range =>
    if t.caller.ret ≥ 16 then
      let callerOffset := t.caller.words 1 - baseAddr
      if callerOffset ≥ range.start ∧ callerOffset ≤ range.stop then
        .audited (audit ++ if c.auditMode then [event .cfiOk] else [])
      else ⟨some (event .cfiFail), audit, none⟩
    else ⟨some (event .cfiFail), audit, none⟩

/-- The stack checks of a site whose policy value admits the syscall. -/
def checkStacks (c : BpfConfig) (m : BpfMaps) (t : Thread) (event : AuditAction → AuditEvent) (offset baseAddr : U64) :
    CheckResult :=
  if c.shadowCfi ∧ shadowFrames t.shadow ≠ [] then
    if ∀ frame ∈ shadowFrames t.shadow, (vmaLookup m.vma frame).isSome then
      checkCaller c m t event offset baseAddr (if c.auditMode then [event .shadowOk] else [])
    else .denied (event .shadowFail)
  else checkCaller c m t event offset baseAddr []

/-- The thread's limit on syscall numbers, if it has one, is exceeded. -/
def exceedsThreadLimit (m : BpfMaps) (t : Thread) (syscallNr : U32) : Bool :=
  match m.threadPolicy (t.tgid, t.tid) with
  | none => false
  | some maxNr => maxNr ≠ 0 ∧ syscallNr > maxNr

/-- The policy value binds another syscall number. -/
def NrMismatch (rule : U64) (syscallNr : U32) : Prop :=
  rule &&& policyFlagCheckNr ≠ 0 ∧ rule.setWidth 32 ≠ syscallNr

instance (rule : U64) (syscallNr : U32) : Decidable (NrMismatch rule syscallNr) := inferInstanceAs (Decidable (_ ∧ _))

/-- The checks of a site that the trie resolved to a module. -/
def checkModule (c : BpfConfig) (m : BpfMaps) (t : Thread) (syscallNr : U32) (site : U64) (mod : VmaValue) :
    CheckResult :=
  let offset := site - mod.baseAddr
  let event := AuditEvent.mk t.tgid t.tid site offset mod.moduleId syscallNr
  if c.learnMode then
    ⟨none, [event .learn], some (offset, (mod.moduleId.setWidth 64 <<< 32) ||| syscallNr.setWidth 64)⟩
  else
    match m.policyRegistry mod.moduleId with
    | none => .denied (event .block)
    | some policyMap =>
      match policyMap offset with
      | none => .denied (event .block)
      | some rule =>
        if exceedsThreadLimit m t syscallNr then .denied (event .block)
        else if NrMismatch rule syscallNr then .denied (event .nrMismatch)
        else checkStacks c m t event offset mod.baseAddr

def sentinelCheck (c : BpfConfig) (m : BpfMaps) (t : Thread) (syscallNr : U32) : CheckResult :=
  match m.targetPid t.tgid with
  | none =>
    if ¬ c.systemWide then .pass
    else if (m.fallbackPolicy syscallNr).isSome then .pass
    else .denied ⟨t.tgid, t.tid, 0, 0, 0, syscallNr, .fallback⟩
  | some _ =>
    if c.cgroupFilter ∧ m.cgroup t.cgroupId = none then .pass
    else
      match t.rip with
      | none => .denied ⟨t.tgid, t.tid, 0, 0, 0, syscallNr, .block⟩
      | some rip =>
        let site := rip - 2
        match vmaLookup m.vma site with
        | none =>
          if c.learnMode then .audited [⟨t.tgid, t.tid, site, 0, 0, syscallNr, .learn⟩]
          else .denied ⟨t.tgid, t.tid, site, 0, 0, syscallNr, .block⟩
        | some mod => checkModule c m t syscallNr site mod

/-! Attribution of what is allowed. -/

/-- A site that passes the module checks is in its module's policy, for this number. -/
theorem checkModule_allowed {c : BpfConfig} {m : BpfMaps} {t : Thread} {syscallNr : U32} {site : U64} {mod : VmaValue}
    (hlearn : c.learnMode = false) (h : (checkModule c m t syscallNr site mod).deny = none) :
    ∃ policyMap rule, m.policyRegistry mod.moduleId = some policyMap ∧
      policyMap (site - mod.baseAddr) = some rule ∧ ¬ NrMismatch rule syscallNr := by
  unfold checkModule at h
  dsimp only at h
  rw [if_neg (by rw [hlearn]; decide)] at h
  cases hreg : m.policyRegistry mod.moduleId with
  | none => rw [hreg] at h; cases h
  | some policyMap =>
    rw [hreg] at h
    dsimp only at h
    cases hrule : policyMap (site - mod.baseAddr) with
    | none => rw [hrule] at h; cases h
    | some rule =>
      rw [hrule] at h
      dsimp only at h
      refine ⟨policyMap, rule, rfl, hrule, fun hbad => ?_⟩
      rw [if_pos hbad] at h
      split at h
      · cases h
      · cases h

/-- A tracked thread's syscall that is not denied was resolved to a module and passed its checks. -/
theorem sentinelCheck_allowed {c : BpfConfig} {m : BpfMaps} {t : Thread} {syscallNr : U32}
    (htracked : m.targetPid t.tgid ≠ none) (hlearn : c.learnMode = false)
    (hcgroup : c.cgroupFilter = true → m.cgroup t.cgroupId ≠ none)
    (h : (sentinelCheck c m t syscallNr).deny = none) :
    ∃ rip mod, t.rip = some rip ∧ vmaLookup m.vma (rip - 2) = some mod ∧
      (checkModule c m t syscallNr (rip - 2) mod).deny = none := by
  unfold sentinelCheck at h
  split at h
  · next hnone => exact absurd hnone htracked
  · rw [if_neg (fun hout => hcgroup hout.1 hout.2)] at h
    cases hrip : t.rip with
    | none => rw [hrip] at h; cases h
    | some rip =>
      rw [hrip] at h
      dsimp only at h
      cases hmod : vmaLookup m.vma (rip - 2) with
      | none =>
        rw [hmod] at h
        dsimp only at h
        rw [if_neg (by rw [hlearn]; decide)] at h
        cases h
      | some mod =>
        rw [hmod] at h
        exact ⟨rip, mod, rfl, hmod, h⟩

/-- **Fail-closed attribution.** Whatever the loader has stored so far (the first `n` entries
    of any of its runs) and whatever the policy maps hold: a syscall of a tracked thread that
    is not denied comes from `B + k`, where `B` is the one base recorded for a module and `k`
    a key of that module's policy map, whose value does not bind another number. -/
theorem allowed_is_attributed (env : LoaderEnv) (scans : List ScanEnv) (n : Nat) (c : BpfConfig) (m : BpfMaps)
    (t : Thread) (syscallNr : U32) (hvma : m.vma = vmaAfter ((loaderRun env scans).writes.take n))
    (htracked : m.targetPid t.tgid ≠ none) (hlearn : c.learnMode = false)
    (hcgroup : c.cgroupFilter = true → m.cgroup t.cgroupId ≠ none)
    (hallow : (sentinelCheck c m t syscallNr).deny = none) :
    ∃ rip moduleId base policyMap k rule, t.rip = some rip ∧
      (∃ w ∈ (loaderRun env scans).writes, w.moduleId = moduleId ∧ w.baseAddr = base) ∧
      (∀ w ∈ (loaderRun env scans).writes, w.moduleId = moduleId → w.baseAddr = base) ∧
      m.policyRegistry moduleId = some policyMap ∧ policyMap k = some rule ∧ rip - 2 = base + k ∧
      (rule &&& policyFlagCheckNr = 0 ∨ rule.setWidth 32 = syscallNr) := by
  obtain ⟨rip, mod, hrip, hmod, hcheck⟩ := sentinelCheck_allowed htracked hlearn hcgroup hallow
  obtain ⟨policyMap, rule, hreg, hrule, hnr⟩ := checkModule_allowed hlearn hcheck
  -- the entry found was stored by the loader
  rw [hvma] at hmod
  obtain ⟨e, he, hval⟩ := LpmTrie.lookup_mem hmod
  obtain ⟨w, hw, hwv⟩ := vmaAfter_mem _ e he
  have hmem : w ∈ (loaderRun env scans).writes := List.mem_of_mem_take hw
  have hmodw : mod = w.value := hval.symm.trans hwv
  refine ⟨rip, mod.moduleId, mod.baseAddr, policyMap, rip - 2 - mod.baseAddr, rule, hrip, ?_, ?_, hreg, hrule, ?_, ?_⟩
  · exact ⟨w, hmem, by rw [hmodw]; rfl, by rw [hmodw]; rfl⟩
  · intro w' hw' hid
    rw [hmodw] at hid ⊢
    exact singleBase_loaderRun env scans w' hw' w hmem hid
  · rw [BitVec.add_comm, BitVec.sub_add_cancel]
  · by_cases hflag : rule &&& policyFlagCheckNr = 0
    · exact Or.inl hflag
    · refine Or.inr ?_
      by_contra hne
      exact hnr ⟨hflag, hne⟩

/-- A statically linked program `/bin/app`: one mapping, no libc. -/
def staticEnv : LoaderEnv where
  fuel := 4
  binName := ascii "app"
  mainRealpath := some (ascii "/bin/app")
  pollMaps := some (ascii "401000-402000 r-xp 0 00:00 1 /bin/app\n")
  mainMaps := some (ascii "401000-402000 r-xp 0 00:00 1 /bin/app\n")
  libcMaps := none
  mainPolicyOk := true
  surfaceReport := false
  libcPolicyCreated := true
  libcPolicyRegistered := true
  libcPathMaps := none
  ldBaseMaps := none
  ldPathMaps := none
  ldMaps := none
  junk := fun _ => (0, 0)
  discoverMaps := some (ascii "401000-402000 r-xp 0 00:00 1 /bin/app\n")
  libs := fun _ => ⟨true, true, none⟩

theorem staticEnv_writes : (loaderRun staticEnv []).writes = [⟨0x400000, moduleMain, 0x401000⟩] := by
  decide +kernel

/-- The main map allows `write` at the site 0x10 bytes into the program. -/
def staticMaps : BpfMaps where
  targetPid := fun p => if p = 42 then some 1 else none
  fallbackPolicy := fun _ => none
  cgroup := fun _ => none
  vma := vmaAfter [⟨0x400000, moduleMain, 0x401000⟩]
  threadPolicy := fun _ => none
  policyRegistry := fun id => if id = moduleMain then
    some (fun k => if k = 0x10 then some (policyFlagCheckNr ||| 1) else none) else none
  cfiPolicy := fun _ => none

def staticThread : Thread := ⟨42, 42, 0, some 0x401012, ⟨0, fun _ => 0⟩, ⟨0, fun _ => 0⟩⟩

theorem allowed_is_attributed_static :
    ∃ moduleId base policyMap k, (∃ w ∈ (loaderRun staticEnv []).writes, w.moduleId = moduleId ∧ w.baseAddr = base) ∧
      staticMaps.policyRegistry moduleId = some policyMap ∧ policyMap k ≠ none ∧ (0x401010 : U64) = base + k := by
  have hallow : (sentinelCheck ⟨false, false, false, false, false⟩ staticMaps staticThread 1).deny = none := by
    decide +kernel
  obtain ⟨rip, moduleId, base, policyMap, k, rule, hrip, hw, _, hreg, hrule, hsite, _⟩ :=
    allowed_is_attributed staticEnv [] 1 ⟨false, false, false, false, false⟩ staticMaps staticThread 1
      (by rw [staticEnv_writes]; rfl) (by decide) rfl (fun h => by cases h) hallow
  cases hrip
  exact ⟨moduleId, base, policyMap, k, hw, hreg, by rw [hrule]; exact Option.some_ne_none _, hsite⟩

end SentinelStack.Cc
