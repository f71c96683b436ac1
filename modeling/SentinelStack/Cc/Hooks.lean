import SentinelStack.Cc.Check

/- The hooks of `sentinel.bpf.c` on entry to a syscall, and what a denial does.

   Thirteen hooks hand their syscall number to `sentinel_check`. Six deny their
   syscall to every tracked process by themselves, and repeat only the first of
   its scoping rules. Main results: `hooks_scoped_iff` — a hook keeps to the cgroup
   filter and to the system-wide policy if and only if it goes through
   `sentinel_check`, or the state does not ask for the rule;
   `enforcement_unobserved` — what `sentinel_check` denies depends neither on
   `audit_mode` nor on `enforce_mode`, and a permissive run emits
   `EVENT_PERMISSIVE` where the other modes send their signal. -/
namespace SentinelStack.Cc
open SentinelStack.Lib

/-! The hooks. -/

section hooks
variable (c : BpfConfig) (m : BpfMaps) (t : Thread)

def sentinelWriteCheck : CheckResult := sentinelCheck c m t 1
def sentinelReadCheck : CheckResult := sentinelCheck c m t 0
def sentinelOpenatCheck : CheckResult := sentinelCheck c m t 257
def sentinelExecveCheck : CheckResult := sentinelCheck c m t 59
def sentinelMmapCheck : CheckResult := sentinelCheck c m t 9
def sentinelMprotectCheck : CheckResult := sentinelCheck c m t 10
def sentinelConnectCheck : CheckResult := sentinelCheck c m t 42
def sentinelMemfdCreateCheck : CheckResult := sentinelCheck c m t 319
def sentinelPrctlCheck : CheckResult := sentinelCheck c m t 157
def sentinelSendmsgCheck : CheckResult := sentinelCheck c m t 46
def sentinelDup2Check : CheckResult := sentinelCheck c m t 33
def sentinelCloseCheck : CheckResult := sentinelCheck c m t 3
def sentinelIoctlCheck : CheckResult := sentinelCheck c m t 16

/-- The body of the hooks that deny their syscall to every tracked process. -/
def denyMonitored (syscallNr : U32) (eventType : AuditAction) : CheckResult :=
  match m.targetPid t.tgid with
  | none => .pass
  | some _ => .denied ⟨t.tgid, t.tid, 0, 0, 0, syscallNr, eventType⟩

def sentinelPtraceCheck : CheckResult := denyMonitored m t 101 .block
def sentinelProcessVmWritevCheck : CheckResult := denyMonitored m t 311 .block
def sentinelSeccompCheck : CheckResult := denyMonitored m t 317 .block
def sentinelBpfCheck : CheckResult := denyMonitored m t 321 .kobjDeny
def sentinelUnshareCheck : CheckResult := denyMonitored m t 272 .kobjDeny
def sentinelSetnsCheck : CheckResult := denyMonitored m t 308 .kobjDeny

end hooks

/-- The `fentry` programs, by the syscall each is attached to. -/
inductive Hook where
  | write
  | read
  | openat
  | execve
  | mmap
  | mprotect
  | connect
  | ptrace
  | memfdCreate
  | processVmWritev
  | prctl
  | sendmsg
  | dup2
  | close
  | ioctl
  | seccomp
  | bpf
  | unshare
  | setns
  deriving DecidableEq, Repr

namespace Hook

def run (c : BpfConfig) (m : BpfMaps) (t : Thread) : Hook → CheckResult
  | write => sentinelWriteCheck c m t
  | read => sentinelReadCheck c m t
  | openat => sentinelOpenatCheck c m t
  | execve => sentinelExecveCheck c m t
  | mmap => sentinelMmapCheck c m t
  | mprotect => sentinelMprotectCheck c m t
  | connect => sentinelConnectCheck c m t
  | ptrace => sentinelPtraceCheck m t
  | memfdCreate => sentinelMemfdCreateCheck c m t
  | processVmWritev => sentinelProcessVmWritevCheck m t
  | prctl => sentinelPrctlCheck c m t
  | sendmsg => sentinelSendmsgCheck c m t
  | dup2 => sentinelDup2Check c m t
  | close => sentinelCloseCheck c m t
  | ioctl => sentinelIoctlCheck c m t
  | seccomp => sentinelSeccompCheck m t
  | bpf => sentinelBpfCheck m t
  | unshare => sentinelUnshareCheck m t
  | setns => sentinelSetnsCheck m t

/-- The number of the hooked syscall. -/
def syscallNr : Hook → U32
  | write => 1
  | read => 0
  | openat => 257
  | execve => 59
  | mmap => 9
  | mprotect => 10
  | connect => 42
  | ptrace => 101
  | memfdCreate => 319
  | processVmWritev => 311
  | prctl => 157
  | sendmsg => 46
  | dup2 => 33
  | close => 3
  | ioctl => 16
  | seccomp => 317
  | bpf => 321
  | unshare => 272
  | setns => 308

/-- The hook denies by itself, without `sentinel_check`. -/
def Unconditional (h : Hook) : Prop := h ∈ [ptrace, processVmWritev, seccomp, bpf, unshare, setns]

instance (h : Hook) : Decidable h.Unconditional := inferInstanceAs (Decidable (_ ∈ _))

variable {c : BpfConfig} {m : BpfMaps} {t : Thread} {h : Hook}

/-- A hook is one of two bodies. -/
theorem run_eq (c : BpfConfig) (m : BpfMaps) (t : Thread) (h : Hook) :
    ¬ h.Unconditional ∧ h.run c m t = sentinelCheck c m t h.syscallNr ∨
      h.Unconditional ∧ ∃ eventType, h.run c m t = denyMonitored m t h.syscallNr eventType := by
  cases h
  case ptrace => exact Or.inr ⟨by decide, .block, rfl⟩
  case processVmWritev => exact Or.inr ⟨by decide, .block, rfl⟩
  case seccomp => exact Or.inr ⟨by decide, .block, rfl⟩
  case bpf => exact Or.inr ⟨by decide, .kobjDeny, rfl⟩
  case unshare => exact Or.inr ⟨by decide, .kobjDeny, rfl⟩
  case setns => exact Or.inr ⟨by decide, .kobjDeny, rfl⟩
  all_goals exact Or.inl ⟨by decide, rfl⟩

end Hook

/-! Scoping. -/

/-- A tracked process outside the listed cgroups is not denied while the filter is on. -/
def CgroupScoped (c : BpfConfig) (m : BpfMaps) (t : Thread) (h : Hook) : Prop :=
  m.targetPid t.tgid ≠ none → c.cgroupFilter = true → m.cgroup t.cgroupId = none → (h.run c m t).deny = none

/-- In system-wide mode an untracked process is denied exactly what the fallback policy lacks. -/
def SystemWideScoped (c : BpfConfig) (m : BpfMaps) (t : Thread) (h : Hook) : Prop :=
  c.systemWide = true → m.targetPid t.tgid = none →
    ((h.run c m t).deny ≠ none ↔ m.fallbackPolicy h.syscallNr = none)

section scoping
variable {c : BpfConfig} {m : BpfMaps} {t : Thread} {syscallNr : U32}

theorem sentinelCheck_outside (htracked : m.targetPid t.tgid ≠ none) (hfilter : c.cgroupFilter = true)
    (houtside : m.cgroup t.cgroupId = none) : sentinelCheck c m t syscallNr = .pass := by
  unfold sentinelCheck
  split
  next hnone => exact absurd hnone htracked
  next => rw [if_pos ⟨hfilter, houtside⟩]

theorem sentinelCheck_untracked (huntracked : m.targetPid t.tgid = none) :
    (sentinelCheck c m t syscallNr).deny ≠ none ↔ c.systemWide = true ∧ m.fallbackPolicy syscallNr = none := by
  unfold sentinelCheck
  rw [huntracked]
  dsimp only
  by_cases hwide : c.systemWide = true
  · cases hfallback : m.fallbackPolicy syscallNr with
    | none => simp [hwide, CheckResult.denied]
    | some v => simp [CheckResult.pass]
  · simp [hwide, CheckResult.pass]

theorem denyMonitored_deny_iff (eventType : AuditAction) :
    (denyMonitored m t syscallNr eventType).deny ≠ none ↔ m.targetPid t.tgid ≠ none := by
  unfold denyMonitored
  cases m.targetPid t.tgid with
  | none => simp [CheckResult.pass]
  | some v => simp [CheckResult.denied]

end scoping

/-- **Which hooks keep to the scope.** For every configuration, state of the maps and thread: a hook
    leaves alone the tracked processes outside the listed cgroups, and judges the untracked ones by
    the fallback policy, unless it is one of the six that deny by themselves and the state is one
    the rule is about. -/
theorem hooks_scoped_iff (c : BpfConfig) (m : BpfMaps) (t : Thread) (h : Hook) :
    (CgroupScoped c m t h ↔
        (h.Unconditional → m.targetPid t.tgid ≠ none → c.cgroupFilter = true → m.cgroup t.cgroupId ≠ none)) ∧
      (SystemWideScoped c m t h ↔
        (h.Unconditional → c.systemWide = true → m.targetPid t.tgid = none → m.fallbackPolicy h.syscallNr ≠ none)) := by
  rcases h.run_eq c m t with ⟨hchecked, hrun⟩ | ⟨huncond, eventType, hrun⟩
  · refine ⟨iff_of_true ?_ fun hu => absurd hu hchecked, iff_of_true ?_ fun hu => absurd hu hchecked⟩
    · intro htracked hfilter houtside
      rw [hrun, sentinelCheck_outside htracked hfilter houtside]
      rfl
    · intro hwide huntracked
      rw [hrun, sentinelCheck_untracked huntracked]
      exact and_iff_right hwide
  · constructor
    · constructor
      · intro hscoped _ htracked hfilter houtside
        have hdeny := hscoped htracked hfilter houtside
        rw [hrun] at hdeny
        exact (denyMonitored_deny_iff eventType).mpr htracked hdeny
      · intro hrule htracked hfilter houtside
        exact absurd houtside (hrule huncond htracked hfilter)
    · have hdeny : m.targetPid t.tgid = none → (h.run c m t).deny = none := by
        intro huntracked
        rw [hrun]
        exact not_not.mp fun h => (denyMonitored_deny_iff eventType).mp h huntracked
      constructor
      · intro hscoped _ hwide huntracked hlacks
        exact (hscoped hwide huntracked).mpr hlacks (hdeny huntracked)
      · intro hrule hwide huntracked
        exact iff_of_false (not_not.mpr (hdeny huntracked)) (hrule huncond hwide huntracked)

/-- **`ptrace` out of scope.** The filter is on and no cgroup is listed, and the tracked process is
    denied `ptrace` all the same. In system-wide mode an untracked process is not denied it, though the
    fallback policy lacks it. -/
theorem ptrace_out_of_scope :
    ¬ CgroupScoped ⟨false, false, false, false, true⟩ staticMaps staticThread .ptrace ∧
      ¬ SystemWideScoped ⟨false, false, false, true, false⟩ staticMaps { staticThread with tgid := 7 } .ptrace := by
  refine ⟨fun hscoped => ?_, fun hscoped => ?_⟩
  · exact absurd (hscoped (by decide) rfl rfl) (by decide)
  · exact absurd ((hscoped rfl (by decide)).mpr rfl) (by decide)

/-! What a denial does. -/

/-- `ENFORCE_KILL`. -/
def enforceKill : U32 := 0

/-- `ENFORCE_PERMISSIVE`. -/
def enforcePermissive : U32 := 1

/-- `ENFORCE_TERM`. -/
def enforceTerm : U32 := 2

def sigKill : Nat := 9
def sigTerm : Nat := 15

/-- What a program run did: the call of `deny_action`, the calls of `emit_audit` in order, and the
    signal sent. -/
structure HookRun where
  denied : Option AuditEvent
  emitted : List AuditEvent
  signal : Option Nat
  deriving DecidableEq, Repr

/-- `deny_action`: the event it emits and the signal it sends. -/
def denyAction (enforceMode : U32) (e : AuditEvent) : AuditEvent × Option Nat :=
  if enforceMode = enforcePermissive then ({ e with action := .permissive }, none)
  else (e, some (if enforceMode = enforceTerm then sigTerm else sigKill))

/-- The run of a program with the given result: what it emitted before a denial comes first. -/
def CheckResult.execute (r : CheckResult) (enforceMode : U32) : HookRun where
  denied := r.deny
  emitted := r.audit ++ (r.deny.map fun e => (denyAction enforceMode e).1).toList
  signal := r.deny.bind fun e => (denyAction enforceMode e).2

/-- The records that reach the ring buffer: the calls whose reservation succeeds. -/
def submitted (reserve : Nat → Bool) (calls : List AuditEvent) : List AuditEvent :=
  (calls.zipIdx.filter fun call => reserve call.2).map (·.1)

section modes
variable {c : BpfConfig} {m : BpfMaps} {t : Thread} {syscallNr : U32}

/-- The decision of `check_caller` is up to the maps and the stack. -/
theorem checkCaller_deny (c : BpfConfig) (audit : Bool) (m : BpfMaps) (t : Thread) (event : AuditAction → AuditEvent)
    (offset baseAddr : U64) (es es' : List AuditEvent) :
    (checkCaller { c with auditMode := audit } m t event offset baseAddr es).deny =
      (checkCaller c m t event offset baseAddr es').deny := by
  unfold checkCaller
  cases m.cfiPolicy offset with
  | none => rfl
  | some range =>
    dsimp only
    split
    · split
      · rfl
      · rfl
    · rfl

theorem checkStacks_deny (c : BpfConfig) (audit : Bool) (m : BpfMaps) (t : Thread) (event : AuditAction → AuditEvent)
    (offset baseAddr : U64) :
    (checkStacks { c with auditMode := audit } m t event offset baseAddr).deny =
      (checkStacks c m t event offset baseAddr).deny := by
  unfold checkStacks
  dsimp only
  split
  · split
    · exact checkCaller_deny ..
    · rfl
  · exact checkCaller_deny ..

theorem checkModule_deny (c : BpfConfig) (audit : Bool) (m : BpfMaps) (t : Thread) (syscallNr : U32) (site : U64)
    (mod : VmaValue) :
    (checkModule { c with auditMode := audit } m t syscallNr site mod).deny =
      (checkModule c m t syscallNr site mod).deny := by
  unfold checkModule
  dsimp only
  split
  · rfl
  · split
    · rfl
    · split
      · rfl
      · split
        · rfl
        · split
          · rfl
          · exact checkStacks_deny ..

/-- **The decision.** `audit_mode` has no part in it. -/
theorem sentinelCheck_deny (c : BpfConfig) (audit : Bool) (m : BpfMaps) (t : Thread) (syscallNr : U32) :
    (sentinelCheck { c with auditMode := audit } m t syscallNr).deny = (sentinelCheck c m t syscallNr).deny := by
  unfold sentinelCheck
  dsimp only
  split
  · rfl
  · split
    · rfl
    · split
      · rfl
      · split
        · rfl
        · exact checkModule_deny ..

/-- The events of a syscall that goes on. -/
def AuditAction.Passing (a : AuditAction) : Prop := a ∈ [allow, cfiOk, learn, shadowOk]

instance (a : AuditAction) : Decidable a.Passing := inferInstanceAs (Decidable (_ ∈ _))

/-- What a run emits on its way is passing, and what it denies with is not. -/
structure CheckResult.Sorted (r : CheckResult) : Prop where
  audit : ∀ e ∈ r.audit, e.action.Passing
  deny : ∀ e, r.deny = some e → ¬ e.action.Passing

namespace CheckResult.Sorted

theorem pass : CheckResult.pass.Sorted :=
  ⟨fun _ he => absurd he List.not_mem_nil, fun _ he => absurd he (Option.some_ne_none _).symm⟩

theorem audited {es : List AuditEvent} (h : ∀ e ∈ es, e.action.Passing) : (CheckResult.audited es).Sorted :=
  ⟨h, fun _ he => absurd he (Option.some_ne_none _).symm⟩

theorem deniedAfter {e : AuditEvent} {es : List AuditEvent} (h : ∀ e ∈ es, e.action.Passing)
    (he : ¬ e.action.Passing) : (CheckResult.mk (some e) es none).Sorted := by
  refine ⟨h, fun e' he' => ?_⟩
  cases he'
  exact he

theorem denied {e : AuditEvent} (he : ¬ e.action.Passing) : (CheckResult.denied e).Sorted :=
  deniedAfter (fun _ h => absurd h List.not_mem_nil) he

theorem learned {e : AuditEvent} {entry : U64 × U64} (he : e.action.Passing) :
    (CheckResult.mk none [e] (some entry)).Sorted := by
  refine ⟨fun e' he' => ?_, fun _ he' => absurd he' (Option.some_ne_none _).symm⟩
  rw [List.mem_singleton.mp he']
  exact he

end CheckResult.Sorted

/-- An event emitted only in audit mode, after others. -/
theorem passing_append {es : List AuditEvent} (hes : ∀ e ∈ es, e.action.Passing) {e : AuditEvent}
    (he : e.action.Passing) (p : Prop) [Decidable p] :
    ∀ e' ∈ es ++ (if p then [e] else []), e'.action.Passing := by
  intro e' he'
  rcases List.mem_append.mp he' with hold | hnew
  · exact hes e' hold
  · split at hnew
    · rw [List.mem_singleton.mp hnew]
      exact he
    · exact absurd hnew List.not_mem_nil

theorem checkCaller_sorted {event : AuditAction → AuditEvent} (hevent : ∀ a, (event a).action = a) (offset baseAddr : U64)
    {es : List AuditEvent} (hes : ∀ e ∈ es, e.action.Passing) : (checkCaller c m t event offset baseAddr es).Sorted := by
  have hfail : ¬ (event .cfiFail).action.Passing := by
    rw [hevent]
    decide
  unfold checkCaller
  split
  · exact .audited (passing_append hes (by rw [hevent]; decide) _)
  · split
    · dsimp only
      split
      · exact .audited (passing_append hes (by rw [hevent]; decide) _)
      · exact .deniedAfter hes hfail
    · exact .deniedAfter hes hfail

theorem checkStacks_sorted {event : AuditAction → AuditEvent} (hevent : ∀ a, (event a).action = a)
    (offset baseAddr : U64) : (checkStacks c m t event offset baseAddr).Sorted := by
  have hnil : ∀ e ∈ ([] : List AuditEvent), e.action.Passing := fun _ he => absurd he List.not_mem_nil
  unfold checkStacks
  split
  · split
    · exact checkCaller_sorted hevent _ _ (passing_append hnil (by rw [hevent]; decide) _)
    · exact .denied (by rw [hevent]; decide)
  · exact checkCaller_sorted hevent _ _ hnil

theorem checkModule_sorted (syscallNr : U32) (site : U64) (mod : VmaValue) :
    (checkModule c m t syscallNr site mod).Sorted := by
  unfold checkModule
  dsimp only
  split
  · exact .learned (by dsimp only; decide)
  · split
    · exact .denied (by dsimp only; decide)
    · split
      · exact .denied (by dsimp only; decide)
      · split
        · exact .denied (by dsimp only; decide)
        · split
          · exact .denied (by dsimp only; decide)
          · exact checkStacks_sorted (fun _ => rfl) _ _

theorem sentinelCheck_sorted (c : BpfConfig) (m : BpfMaps) (t : Thread) (syscallNr : U32) :
    (sentinelCheck c m t syscallNr).Sorted := by
  unfold sentinelCheck
  split
  · split
    · exact .pass
    · split
      · exact .pass
      · exact .denied (by dsimp only; decide)
  · split
    · exact .pass
    · split
      · exact .denied (by dsimp only; decide)
      · dsimp only
        split
        · split
          · refine .audited fun e he => ?_
            rw [List.mem_singleton.mp he]
            dsimp only
            decide
          · exact .denied (by dsimp only; decide)
        · exact checkModule_sorted ..

end modes

/-- How permissive mode reports an event. -/
def AuditEvent.underPermissive (e : AuditEvent) : AuditEvent :=
  if e.action.Passing then e else { e with action := .permissive }

section execute
variable {r : CheckResult}

theorem CheckResult.Sorted.map_audit (h : r.Sorted) : r.audit.map AuditEvent.underPermissive = r.audit := by
  have hid : ∀ e ∈ r.audit, e.underPermissive = id e := fun e he => if_pos (h.audit e he)
  rw [List.map_congr_left hid, List.map_id]

/-- In permissive mode the denial is reported as such and the rest is the same. -/
theorem CheckResult.Sorted.emitted_permissive (h : r.Sorted) :
    (r.execute enforcePermissive).emitted = (r.execute enforceKill).emitted.map AuditEvent.underPermissive := by
  unfold execute denyAction
  dsimp only
  rw [List.map_append, h.map_audit]
  congr 1
  cases hdeny : r.deny with
  | none => rfl
  | some e =>
    show [{ e with action := AuditAction.permissive }] = [e.underPermissive]
    rw [AuditEvent.underPermissive, if_neg (h.deny e hdeny)]

/-- An event of permissive mode is emitted exactly for a denial. -/
theorem CheckResult.Sorted.permissive_iff (h : r.Sorted) :
    (∃ e ∈ (r.execute enforcePermissive).emitted, e.action = .permissive) ↔ r.deny ≠ none := by
  constructor
  · rintro ⟨e, he, haction⟩ hnone
    unfold execute at he
    dsimp only at he
    rw [hnone] at he
    -- without a denial only passing events are left
    have hpassing := h.audit e (by simpa using he)
    rw [haction] at hpassing
    exact absurd hpassing (by decide)
  · intro hdeny
    obtain ⟨e, he⟩ := Option.ne_none_iff_exists'.mp hdeny
    refine ⟨{ e with action := .permissive }, ?_, rfl⟩
    unfold execute
    dsimp only
    rw [he]
    exact List.mem_append_right _ (List.mem_singleton_self _)

theorem signal_iff (r : CheckResult) (mode : U32) (hmode : mode ≠ enforcePermissive) {sig : Nat}
    (hsig : sig = if mode = enforceTerm then sigTerm else sigKill) :
    (r.execute mode).signal = some sig ↔ r.deny ≠ none := by
  unfold CheckResult.execute denyAction
  dsimp only
  rw [hsig]
  cases r.deny with
  | none => simp
  | some e => simp [hmode]

/-- A reservation does not look at the record. -/
theorem submitted_map (reserve : Nat → Bool) (calls : List AuditEvent) (f : AuditEvent → AuditEvent) :
    submitted reserve (calls.map f) = (submitted reserve calls).map f := by
  unfold submitted
  rw [List.zipIdx_map, List.filter_map, List.map_map, List.map_map]
  rfl

end execute

/-- `sentinel_check` with the read-only constants of one load. -/
def checkRun (c : BpfConfig) (enforceMode : U32) (m : BpfMaps) (t : Thread) (syscallNr : U32) : HookRun :=
  (sentinelCheck c m t syscallNr).execute enforceMode

/-- **Observation does not change enforcement.** For every configuration, state of the maps, thread
    with its stacks and number: the call of `deny_action` is the same whatever `audit_mode` and
    `enforce_mode` are. A permissive run sends no signal and emits `EVENT_PERMISSIVE` exactly when
    a kill run sends SIGKILL and a term run sends SIGTERM. What the three emit is the same but for
    the type of the denial, and so are the records for which the ring buffer has room. -/
theorem enforcement_unobserved (c : BpfConfig) (m : BpfMaps) (t : Thread) (syscallNr : U32) :
    (∀ audit audit' mode mode', (checkRun { c with auditMode := audit } mode m t syscallNr).denied =
        (checkRun { c with auditMode := audit' } mode' m t syscallNr).denied) ∧
      (checkRun c enforcePermissive m t syscallNr).signal = none ∧
      ((∃ e ∈ (checkRun c enforcePermissive m t syscallNr).emitted, e.action = .permissive) ↔
        (checkRun c enforceKill m t syscallNr).signal = some sigKill) ∧
      ((∃ e ∈ (checkRun c enforcePermissive m t syscallNr).emitted, e.action = .permissive) ↔
        (checkRun c enforceTerm m t syscallNr).signal = some sigTerm) ∧
      (checkRun c enforceTerm m t syscallNr).emitted = (checkRun c enforceKill m t syscallNr).emitted ∧
      (checkRun c enforcePermissive m t syscallNr).emitted =
        (checkRun c enforceKill m t syscallNr).emitted.map AuditEvent.underPermissive ∧
      ∀ reserve, submitted reserve (checkRun c enforcePermissive m t syscallNr).emitted =
        (submitted reserve (checkRun c enforceKill m t syscallNr).emitted).map AuditEvent.underPermissive := by
  have hsorted := sentinelCheck_sorted c m t syscallNr
  have hpermissive := hsorted.permissive_iff
  have hemitted := hsorted.emitted_permissive
  have hkill := signal_iff (sentinelCheck c m t syscallNr) enforceKill (by decide) rfl
  have hterm := signal_iff (sentinelCheck c m t syscallNr) enforceTerm (by decide) rfl
  refine ⟨fun audit audit' _ _ => ?_, ?_, hpermissive.trans hkill.symm, hpermissive.trans hterm.symm, ?_, hemitted,
    fun reserve => ?_⟩
  · exact (sentinelCheck_deny c audit m t syscallNr).trans (sentinelCheck_deny c audit' m t syscallNr).symm
  · unfold checkRun CheckResult.execute
    dsimp only
    cases (sentinelCheck c m t syscallNr).deny with
    | none => rfl
    | some e => rfl
  · rfl
  · show submitted reserve ((sentinelCheck c m t syscallNr).execute enforcePermissive).emitted = _
    rw [hemitted, submitted_map]
    rfl

end SentinelStack.Cc
