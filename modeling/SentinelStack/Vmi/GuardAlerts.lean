import SentinelStack.Vmi.BridgeEmission
import SentinelStack.Vmi.GuardPoll

/- The guard and the bridge together. A poll reports every region whose hash is
   new, and remembers the hash; the bridge may drop the report, as it drops a
   signal of a pid it has raised an alert of the same level for less than a second
   ago, and every report of the guard is for pid 0. `found` logs the regions with
   the alerts that came of their reports.

   Main result: `violations_alerted_iff` — every such alert is emitted by the next
   flush; and a region has one, for each new hash found of it, if and only if every
   report sends a signal that the policy, as it stands then, lets through. -/
namespace SentinelStack.Vmi
open SentinelStack.Lib

/-- A region found with a new hash, and the signals its report sends. -/
structure Violation where
  region : GuardRegion
  hash : U64
  signals : List Signal
  deriving DecidableEq

def GuardReport.signal? : GuardReport → Option Signal
  | .process _ signal => signal
  | .integrity signal => some signal

/-- What a poll reports for one region. -/
def regionReports (host : Host) (s : VmiSession) (gs : GuardState) (allowPatch : Option CStr) (auth : AuthState)
    (r : GuardRegion) (hash : U64) : List GuardReport × AuthState :=
  if r.name = ascii "sys_call_table" then reportSyscallTableDiffs host s gs allowPatch auth
  else ([.integrity (npfHandlerReportIntegrityViolation r.name r.gpa r.baselineHash hash r.critical)], auth)

/-- The regions a poll reports, in turn. -/
def pollViolations (host : Host) (s : VmiSession) (gs : GuardState) (allowPatch : Option CStr) :
    AuthState → List GuardRegion → List Violation
  | _, [] => []
  | auth, r :: rest =>
    match newMismatch host s r with
    | none => pollViolations host s gs allowPatch auth rest
    | some hash =>
      let reported := regionReports host s gs allowPatch auth r hash
      ⟨r, hash, reported.1.filterMap (·.signal?)⟩ :: pollViolations host s gs allowPatch reported.2 rest

/-! Signals on their way to the bridge. -/

/-- The call a signal is, at the clock readings the bridge takes for it. -/
def Signal.op (clock : U64 × U64) : Signal → BridgeOp
  | .malicious pid reason => .signalMalicious pid (some reason) clock.1 clock.2
  | .suspicious pid reason => .signalSuspicious pid (some reason) clock.1 clock.2

/-- The calls of a poll; `clock n` are the readings for its `n`-th signal. -/
def signalOps (clock : Nat → U64 × U64) : Nat → List Signal → List BridgeOp
  | _, [] => []
  | n, signal :: rest => signal.op (clock n) :: signalOps clock (n + 1) rest

def timed (clock : Nat → U64 × U64) : Nat → List Violation → List (Violation × List BridgeOp)
  | _, [] => []
  | n, v :: rest => (v, signalOps clock n v.signals) :: timed clock (n + v.signals.length) rest

/-- The alerts that come of each report. -/
def alertsOf : PolicyTable → List (Violation × List BridgeOp) → List (Violation × List VmiAlert)
  | _, [] => []
  | t, (v, ops) :: rest => (v, unsuppressed t ops) :: alertsOf (run policyStep t ops) rest

/-! The composed system. -/

structure Watch where
  guard : Guard
  bridge : BridgeState
  found : List (Violation × List VmiAlert)

inductive WatchEvent where
  | guard (e : GuardEvent) (clock : Nat → U64 × U64)
  | flushAlerts

/-- The signals that a call into the guard sends. -/
def eventSignals (s : VmiSession) (g : Guard) : GuardEvent → List Signal
  | .register .. => []
  | .poll host now allowPatch auth =>
    match nptGuardHandleEvents host s now allowPatch auth g with
    | none => []
    | some (_, reports, _) => reports.filterMap (·.signal?)

/-- The regions a call into the guard finds with a new hash. -/
def eventViolations (s : VmiSession) (g : Guard) : GuardEvent → List Violation
  | .register .. => []
  | .poll host now allowPatch auth =>
    if ¬ s.nptArmed ∨ TooEarly g now then []
    else pollViolations host s g.state allowPatch auth g.state.guardRegions.regions

def Watch.step (env : MapEnv) (s : VmiSession) (w : Watch) : WatchEvent → Watch
  | .guard e clock =>
    { guard := w.guard.step s e
      bridge := run (bridgeStep env) w.bridge (signalOps clock 0 (eventSignals s w.guard e))
      found := w.found ++ alertsOf w.bridge.policyTable (timed clock 0 (eventViolations s w.guard e)) }
  | .flushAlerts => { w with bridge := bridgeFlushAlerts env w.bridge }

@[simp] theorem step_guard_bridge (env : MapEnv) (s : VmiSession) (w : Watch) (e : GuardEvent) (clock : Nat → U64 × U64) :
    (w.step env s (.guard e clock)).bridge =
      run (bridgeStep env) w.bridge (signalOps clock 0 (eventSignals s w.guard e)) := rfl

@[simp] theorem step_guard_found (env : MapEnv) (s : VmiSession) (w : Watch) (e : GuardEvent) (clock : Nat → U64 × U64) :
    (w.step env s (.guard e clock)).found =
      w.found ++ alertsOf w.bridge.policyTable (timed clock 0 (eventViolations s w.guard e)) := rfl

/-! What the bridge lets through. -/

/-- The policy drops the signal: its pid raised an alert of the same level less than a second ago,
    and no burst escalates it. -/
def Dropped (t : PolicyTable) (signal : PolicySignal) : Prop :=
  let burst := applyBurst (stateFor t signal.pid) signal.requested signal.nowNs
  burst.2.1 = burst.1.lastEffectiveThreat ∧ signal.nowNs - burst.1.lastEmitNs < policyDedupWindowNs ∧ ¬ burst.2.2

/-- One of the calls is a signal that is not dropped. -/
def Heard (t : PolicyTable) (ops : List BridgeOp) : Prop :=
  ∃ pre op post signal, ops = pre ++ op :: post ∧ op.signal? = some signal ∧ ¬ Dropped (run policyStep t pre) signal

def AllHeard : PolicyTable → List (Violation × List BridgeOp) → Prop
  | _, [] => True
  | t, (_, ops) :: rest => Heard t ops ∧ AllHeard (run policyStep t ops) rest

/-- Every region the call finds is heard of. -/
def Voices (s : VmiSession) (w : Watch) : WatchEvent → Prop
  | .guard e clock => AllHeard w.bridge.policyTable (timed clock 0 (eventViolations s w.guard e))
  | .flushAlerts => True

theorem suppressEmit_iff (t : PolicyTable) (signal : PolicySignal) :
    (applyThreatPolicy t signal.pid signal.requested signal.nowNs).suppressEmit = true ↔ Dropped t signal := by
  have hverdict : (applyThreatPolicy t signal.pid signal.requested signal.nowNs).suppressEmit =
      (judge (stateFor t signal.pid) signal.requested signal.nowNs).1.suppressEmit :=
    congrArg PolicyVerdict.suppressEmit (applyThreatPolicy_verdict t signal.pid signal.requested signal.nowNs)
  rw [hverdict, judge, Dropped]
  exact decide_eq_true_iff

theorem signalAlert_eq_none_iff (t : PolicyTable) (signal : PolicySignal) (reason : Option CStr) (stampNs : U64) :
    signalAlert t signal.requested signal.pid reason signal.nowNs stampNs = none ↔ Dropped t signal := by
  rw [← suppressEmit_iff, signalAlert]
  split
  next h => simp [h]
  next h => simp [h]

/-- A call raises no alert exactly when it is no signal, or one that is dropped. -/
theorem unsuppressedAlert_eq_none_iff (t : PolicyTable) (op : BridgeOp) :
    unsuppressedAlert t op = none ↔ ∀ signal, op.signal? = some signal → Dropped t signal := by
  cases op with
  | signalMalicious pid reason nowNs stampNs =>
    rw [unsuppressedAlert, BridgeOp.signal?]
    refine (signalAlert_eq_none_iff t ⟨pid, .malicious, nowNs⟩ reason stampNs).trans ?_
    simp
  | signalSuspicious pid reason nowNs stampNs =>
    rw [unsuppressedAlert, BridgeOp.signal?]
    refine (signalAlert_eq_none_iff t ⟨pid, .suspicious, nowNs⟩ reason stampNs).trans ?_
    simp
  | flushAlerts => simp [unsuppressedAlert, BridgeOp.signal?]

theorem unsuppressed_append (t : PolicyTable) (ops rest : List BridgeOp) :
    unsuppressed t (ops ++ rest) = unsuppressed t ops ++ unsuppressed (run policyStep t ops) rest := by
  induction ops generalizing t with
  | nil => rfl
  | cons op ops ih => rw [List.cons_append, unsuppressed, unsuppressed, ih, List.append_assoc, run_cons]

theorem unsuppressed_ne_nil_iff (t : PolicyTable) (ops : List BridgeOp) : unsuppressed t ops ≠ [] ↔ Heard t ops := by
  constructor
  · intro h
    induction ops generalizing t with
    | nil => exact absurd rfl h
    | cons op ops ih =>
      -- the first call that raises an alert is the one heard
      cases hop : unsuppressedAlert t op with
      | some alert =>
        have hsome : ¬ unsuppressedAlert t op = none := by rw [hop]; exact Option.some_ne_none alert
        rw [unsuppressedAlert_eq_none_iff] at hsome
        push Not at hsome
        obtain ⟨signal, hsignal, hheard⟩ := hsome
        exact ⟨[], op, ops, signal, rfl, hsignal, hheard⟩
      | none =>
        rw [unsuppressed, hop] at h
        obtain ⟨pre, op', post, signal, hsplit, hsignal, hheard⟩ := ih (policyStep t op) h
        exact ⟨op :: pre, op', post, signal, by rw [hsplit]; rfl, hsignal, hheard⟩
  · rintro ⟨pre, op, post, signal, rfl, hsignal, hheard⟩ hnil
    rw [unsuppressed_append, unsuppressed, List.append_eq_nil_iff, List.append_eq_nil_iff] at hnil
    have hnone : unsuppressedAlert (run policyStep t pre) op = none := by
      rw [Option.toList_eq_nil_iff] at hnil
      exact hnil.2.1
    exact hheard ((unsuppressedAlert_eq_none_iff _ op).mp hnone signal hsignal)

theorem alertsOf_ne_nil_iff (t : PolicyTable) (reports : List (Violation × List BridgeOp)) :
    (∀ v ∈ alertsOf t reports, v.2 ≠ []) ↔ AllHeard t reports := by
  induction reports generalizing t with
  | nil => simp [alertsOf, AllHeard]
  | cons report rest ih =>
    rw [alertsOf, AllHeard, List.forall_mem_cons, unsuppressed_ne_nil_iff, ih]

theorem alertsOf_flatMap (t : PolicyTable) (reports : List (Violation × List BridgeOp)) :
    (alertsOf t reports).flatMap (·.2) = unsuppressed t (reports.flatMap (·.2)) := by
  induction reports generalizing t with
  | nil => rfl
  | cons report rest ih => rw [alertsOf, List.flatMap_cons, List.flatMap_cons, ih, unsuppressed_append]

/-! The reports of a poll are those of its regions. -/

theorem signalOps_append (clock : Nat → U64 × U64) (n : Nat) (signals rest : List Signal) :
    signalOps clock n (signals ++ rest) = signalOps clock n signals ++ signalOps clock (n + signals.length) rest := by
  induction signals generalizing n with
  | nil => rfl
  | cons signal signals ih =>
    rw [List.cons_append, signalOps, signalOps, ih, List.cons_append, List.length_cons, Nat.add_assoc,
      Nat.add_comm 1 signals.length]

theorem timed_flatMap (clock : Nat → U64 × U64) (n : Nat) (vs : List Violation) :
    (timed clock n vs).flatMap (·.2) = signalOps clock n (vs.flatMap (·.signals)) := by
  induction vs generalizing n with
  | nil => rfl
  | cons v vs ih => rw [timed, List.flatMap_cons, List.flatMap_cons, ih, signalOps_append]

theorem pollViolations_signals (host : Host) (s : VmiSession) (gs : GuardState) (allowPatch : Option CStr)
    (auth : AuthState) (regions : List GuardRegion) :
    (pollViolations host s gs allowPatch auth regions).flatMap (·.signals) =
      (pollReports host s gs allowPatch auth regions).1.filterMap (·.signal?) := by
  induction regions generalizing auth with
  | nil => rfl
  | cons r rest ih =>
    rw [pollViolations, pollReports]
    cases newMismatch host s r with
    | none => exact ih auth
    | some hash =>
      dsimp only
      rw [List.flatMap_cons, ih, List.filterMap_append]
      rfl

/-- The regions found are those whose hash is neither the baseline nor the one last reported. -/
theorem pollViolations_regions (host : Host) (s : VmiSession) (gs : GuardState) (allowPatch : Option CStr)
    (auth : AuthState) (regions : List GuardRegion) :
    (pollViolations host s gs allowPatch auth regions).map (fun v => (v.region, v.hash)) =
      regions.filterMap fun r => (newMismatch host s r).map (r, ·) := by
  induction regions generalizing auth with
  | nil => rfl
  | cons r rest ih =>
    rw [pollViolations]
    cases hnew : newMismatch host s r with
    | none => rw [List.filterMap_cons_none (by rw [hnew]; rfl)]; exact ih auth
    | some hash => rw [List.filterMap_cons_some (b := (r, hash)) (by rw [hnew]; rfl), List.map_cons, ih]

/-- An armed guard sends the signals of what it finds. -/
theorem eventSignals_eq {s : VmiSession} (hs : s.nptArmed = true) {clean : List U8} {g : Guard}
    (harmed : g.Armed s clean) (e : GuardEvent) :
    eventSignals s g e = (eventViolations s g e).flatMap (·.signals) := by
  cases e with
  | register host gpa size critical name => rfl
  | poll host now allowPatch auth =>
    rw [eventSignals, eventViolations]
    -- a poll less than the interval after the last one returns at once
    by_cases hearly : TooEarly g now
    · rw [if_pos (Or.inr hearly), nptGuardHandleEvents, if_pos (Or.inr hearly)]
      rfl
    · have hdue : ¬ (¬ s.nptArmed = true ∨ TooEarly g now) := not_or.mpr ⟨not_not.mpr hs, hearly⟩
      obtain ⟨g', hcall⟩ := handleEvents_due hs harmed host hearly allowPatch auth
      rw [if_neg hdue, hcall, pollViolations_signals]

/-! Whole runs. -/

theorem alertsOf_regions (t : PolicyTable) (clock : Nat → U64 × U64) (n : Nat) (vs : List Violation) :
    (alertsOf t (timed clock n vs)).map (·.1) = vs := by
  induction vs generalizing t n with
  | nil => rfl
  | cons v vs ih => rw [timed, alertsOf, List.map_cons, ih]

/-- What the log stands for: the guard is armed, and the alerts in it are those in custody. -/
structure Watch.Accounts (s : VmiSession) (clean : List U8) (w : Watch) : Prop where
  armed : w.guard.Armed s clean
  custody : (custody w.bridge).Perm (w.found.flatMap (·.2))

theorem step_accounts {s : VmiSession} (hs : s.nptArmed = true) (env : MapEnv) {clean : List U8} {w : Watch}
    (h : w.Accounts s clean) (e : WatchEvent) : (w.step env s e).Accounts s clean := by
  cases e with
  | flushAlerts =>
    refine ⟨h.armed, ?_⟩
    show (custody (bridgeFlushAlerts env w.bridge)).Perm _
    rw [bridgeFlushAlerts_custody]
    exact h.custody
  | guard e clock =>
    refine ⟨step_armed hs h.armed e, ?_⟩
    rw [step_guard_bridge, step_guard_found, List.flatMap_append, alertsOf_flatMap, timed_flatMap,
      eventSignals_eq hs h.armed]
    exact (run_custody env w.bridge _).trans (h.custody.append_right _)

/-- Every region found so far has an alert. -/
def Watch.AllAlerted (w : Watch) : Prop := ∀ v ∈ w.found, v.2 ≠ []

theorem step_allAlerted_iff (env : MapEnv) (s : VmiSession) (w : Watch) (e : WatchEvent) (h : w.AllAlerted) :
    (w.step env s e).AllAlerted ↔ Voices s w e := by
  cases e with
  | flushAlerts => exact iff_of_true h trivial
  | guard e clock =>
    rw [Voices, ← alertsOf_ne_nil_iff, Watch.AllAlerted, step_guard_found, List.forall_mem_append]
    exact and_iff_right h

/-- **No violation is lost, exactly where every report is heard.** From arming on, over every
    sequence of registrations, polls and flushes, for every memory, map and clock: a poll that is due
    logs the regions whose hash is new; the alerts in the log are those that have been emitted after
    another flush; and every region found has one if and only if every poll voices what it finds. -/
theorem violations_alerted_iff (host₀ : Host) (env₀ : CStr → Option U64) (s₀ s : VmiSession) (gs : GuardState)
    (hlen : gs.cleanSyscallTable.length = sysCallTableSize) (g₀ : Guard)
    (harm : nptGuardArm host₀ env₀ s₀ gs = some (.armed s g₀)) (env : MapEnv) (vmiAlertMap : U32 → Option ThreatLevel)
    (es : List WatchEvent) :
    (∀ (w : Watch) host now allowPatch auth clock, ¬ TooEarly w.guard now →
        (w.step env s (.guard (.poll host now allowPatch auth) clock)).found.map (fun v => (v.1.region, v.1.hash)) =
          w.found.map (fun v => (v.1.region, v.1.hash)) ++
            w.guard.state.guardRegions.regions.filterMap fun r => (newMismatch host s r).map (r, ·)) ∧
      (∀ pre, pre <+: es →
        (emitted (bridgeFlushAlerts env (run (Watch.step env s) ⟨g₀, bridgeInit vmiAlertMap, []⟩ pre).bridge)).Perm
          ((run (Watch.step env s) ⟨g₀, bridgeInit vmiAlertMap, []⟩ pre).found.flatMap (·.2))) ∧
      ((∀ pre, pre <+: es → (run (Watch.step env s) ⟨g₀, bridgeInit vmiAlertMap, []⟩ pre).AllAlerted) ↔
        Along (Watch.step env s) (Voices s) ⟨g₀, bridgeInit vmiAlertMap, []⟩ es) := by
  obtain ⟨hs, harmed, -, -⟩ := arm_spec hlen harm
  refine ⟨?_, ?_, ?_⟩
  · intro w host now allowPatch auth clock hdue
    have hdue' : ¬ (¬ s.nptArmed = true ∨ TooEarly w.guard now) := not_or.mpr ⟨not_not.mpr hs, hdue⟩
    have hlogged := alertsOf_regions w.bridge.policyTable clock 0
      (eventViolations s w.guard (.poll host now allowPatch auth))
    rw [step_guard_found, List.map_append, ← pollViolations_regions host s w.guard.state allowPatch auth]
    rw [eventViolations, if_neg hdue'] at hlogged ⊢
    -- the regions of the log are those found, whatever the policy made of them
    nth_rewrite 2 [← hlogged]
    rw [List.map_map]
    rfl
  · intro pre _
    rw [bridgeFlushAlerts_emitted]
    exact (run_inv (I := Watch.Accounts s g₀.state.cleanSyscallTable) (fun w e hw => step_accounts hs env hw e)
      ⟨harmed, List.Perm.refl _⟩ pre).custody
  · exact Along.iff_inv (step_allAlerted_iff env s) (by intro v hv; cases hv)

/-! What a poll remembers. -/

/-- A region is not found again with the hash it was polled with. -/
theorem newMismatch_polledRegion (host : Host) (s : VmiSession) (r : GuardRegion) :
    newMismatch host s (polledRegion host s r) = none := by
  unfold newMismatch polledRegion
  cases hvalid : r.baselineValid with
  | false => simp [hvalid]
  | true =>
    cases hhash : hashGuestRegion host s r.gpa r.size with
    | none => simp [hvalid, hhash]
    | some hash => by_cases heq : hash = r.baselineHash <;> simp [hhash, heq]

theorem pollViolations_eq_nil {host : Host} {s : VmiSession} {regions : List GuardRegion}
    (h : ∀ r ∈ regions, newMismatch host s r = none) (gs : GuardState) (allowPatch : Option CStr) (auth : AuthState) :
    pollViolations host s gs allowPatch auth regions = [] := by
  induction regions with
  | nil => rfl
  | cons r rest ih =>
    rw [pollViolations, h r List.mem_cons_self]
    exact ih fun r' hr' => h r' (List.mem_cons_of_mem r hr')

/-- Heard or not, what a poll found is not found again by the next one over the same memory. -/
theorem found_once {s : VmiSession} (hs : s.nptArmed = true) {clean : List U8} {g : Guard} (harmed : g.Armed s clean)
    (host : Host) {now : U64} (hdue : ¬ TooEarly g now) (later : U64) (allowPatch : Option CStr)
    (auth auth' : AuthState) :
    eventViolations s (g.step s (.poll host now allowPatch auth)) (.poll host later allowPatch auth') = [] := by
  obtain ⟨g', hcall⟩ := handleEvents_due hs harmed host hdue allowPatch auth
  have hpolled := (handleEvents_regions hcall).2
  rw [if_neg (not_or.mpr ⟨not_not.mpr hs, hdue⟩)] at hpolled
  have hstep : g.step s (.poll host now allowPatch auth) = g' := by rw [Guard.step, hcall]
  rw [hstep, eventViolations]
  split
  · rfl
  · apply pollViolations_eq_nil
    rw [hpolled, List.forall_mem_map]
    exact fun r _ => newMismatch_polledRegion host s r

/-- A region other than the syscall table sends one signal. -/
theorem pollViolations_others {regions : List GuardRegion} (h : ∀ r ∈ regions, r.name ≠ ascii "sys_call_table")
    (host : Host) (s : VmiSession) (gs : GuardState) (allowPatch : Option CStr) (auth : AuthState) :
    pollViolations host s gs allowPatch auth regions = regions.filterMap fun r => (newMismatch host s r).map fun hash =>
      ⟨r, hash, [npfHandlerReportIntegrityViolation r.name r.gpa r.baselineHash hash r.critical]⟩ := by
  induction regions with
  | nil => rfl
  | cons r rest ih =>
    have hr := h r List.mem_cons_self
    have hrest := ih fun r' hr' => h r' (List.mem_cons_of_mem r hr')
    rw [pollViolations, List.filterMap_cons]
    cases newMismatch host s r with
    | none => exact hrest
    | some hash =>
      have hreports : regionReports host s gs allowPatch auth r hash =
          ([.integrity (npfHandlerReportIntegrityViolation r.name r.gpa r.baselineHash hash r.critical)], auth) :=
        if_neg hr
      dsimp only
      rw [hreports, hrest]
      rfl

/-- A table that reads as at its baseline is not found. -/
theorem newMismatch_table {host : Host} {s : VmiSession} {clean : List U8} {r : GuardRegion} (htable : r.IsTable s clean)
    (hread : (vmiReadPhysical host s s.syscallTableGpa sysCallTableSize).bytes? = some clean) :
    newMismatch host s r = none := by
  have hbaseline := htable.baseline
  simp only [GuardRegion.baseline, Prod.mk.injEq] at hbaseline
  obtain ⟨hgpa, hsize, hhash, hvalid⟩ := hbaseline
  have hone : hashGuestRegion host s s.syscallTableGpa (BitVec.ofNat 64 sysCallTableSize) =
      some (fnv1a64Update fnv1a64Init clean) := by
    rw [hashGuestRegion_table_eq, hread, Option.map_some]
  rw [newMismatch, if_pos hvalid, hgpa, hsize, hone, hhash]
  simp

/-! Two descriptor tables that change together. -/

/-- The guest of `guestWith`, with the first bytes of two tables. -/
def patchedGuest (idt gdt : U8) : Host where
  ownMemory := fun a =>
    if a = 0x2300000 then idt else if a = 0x2300100 then gdt else if a &&& 7 = 0 then 0x81 else 0
  qemuMemory := fun _ => 0
  processVmReadv := fun _ _ _ => .failed
  devMem := none

/-- The environment names both tables, eight bytes each. -/
def descriptorTables (name : CStr) : Option U64 :=
  if name = ascii "VMI_IDT_GVA" then some 0xffffffff82300000
  else if name = ascii "VMI_GDT_GVA" then some 0xffffffff82300100
  else if name = ascii "VMI_IDT_SIZE" ∨ name = ascii "VMI_GDT_SIZE" then some 8
  else none

/-- The session once armed, and the two regions. -/
def armedSession : VmiSession := ⟨guestSession.memslots, 0, 0x2200300, 0xffffffff82200300, true, 0, 0x1000⟩

def descriptorRegion (name : CStr) (gpa : U64) : GuardRegion :=
  { newRegion name gpa 8 true (by decide) with baselineHash := 0xab9fc1f02cf9f742, baselineValid := true }

def descriptorRegions : List GuardRegion :=
  [descriptorRegion (ascii "idt") 0x2300000, descriptorRegion (ascii "gdt") 0x2300100]

theorem descriptorTables_arm : ∃ g,
    nptGuardArm (patchedGuest 0x81 0x81) descriptorTables guestSession unarmedState = some (.armed armedSession g) ∧
      g.state.guardRegions.regions.tail = descriptorRegions ∧ g.lastIntegrityCheckUs = 0 := by
  have hrun : (nptGuardArm (patchedGuest 0x81 0x81) descriptorTables guestSession unarmedState).any
      (·.armedWith fun s g => s = armedSession ∧ g.state.guardRegions.regions.tail = descriptorRegions ∧
        g.lastIntegrityCheckUs = 0) = true := by
    decide +kernel
  obtain ⟨s, g, harm, hfacts⟩ := exists_armed hrun
  obtain ⟨rfl, hregions, htime⟩ := of_decide_eq_true hfacts
  exact ⟨g, harm, hregions, htime⟩

/-- The syscall table is the same in all of them. -/
theorem patchedGuest_table (idt gdt : U8) (armed : Bool) :
    (vmiReadPhysical (patchedGuest idt gdt) { armedSession with nptArmed := armed } armedSession.syscallTableGpa
        sysCallTableSize).bytes? =
      some (bytesAt (patchedGuest 0x81 0x81).ownMemory 0x2200300 sysCallTableSize) := by
  have hfind : findMemslot { armedSession with nptArmed := armed } armedSession.syscallTableGpa =
      some (⟨0, 0x4000000, 0, 0, 0⟩, 0x2200300) := by cases armed <;> decide
  have hstart : (⟨0, 0x4000000, 0, 0, 0⟩ : VmiMemslot).userspaceAddr + 0x2200300 = 0x2200300 := by decide
  rw [vmiReadPhysical_own hfind (by decide) (by decide) (by decide), hstart, ReadResult.bytes?, if_pos rfl,
    Option.some.injEq]
  apply bytesAt_congr
  intro i hi
  simp only [sysCallTableSize, Nat.reduceMul] at hi
  have haddr : (0x2200300 + BitVec.ofNat 64 i : U64).toNat = 0x2200300 + i :=
    toNat_add_ofNat (by simp only [BitVec.reduceToNat]; omega)
  have hne : ∀ a : U64, a.toNat ≥ 0x2300000 → (0x2200300 + BitVec.ofNat 64 i : U64) ≠ a := by
    rintro a ha rfl
    omega
  simp only [patchedGuest]
  have hidt := hne 0x2300000 (by simp)
  have hgdt := hne 0x2300100 (by simp)
  rw [if_neg hidt, if_neg hgdt, if_neg hidt, if_neg hgdt]

/-- A poll one second after arming, every signal at two seconds. -/
def pollOf (host : Host) : WatchEvent := .guard (.poll host 1000000 none ⟨0, 0⟩) fun _ => (2000000000, 2000000000)

def workingMap : MapEnv := ⟨true, fun _ => true⟩

def watchFrom (g : Guard) : Watch := ⟨g, bridgeInit fun _ => none, []⟩

/-- The regions of the log with the levels of their alerts. -/
def Watch.levels (w : Watch) : List (CStr × List ThreatLevel) :=
  w.found.map fun v => (v.1.region.name, v.2.map (·.threatLevel))

/-- What the first poll finds. -/
theorem patchedGuest_violations {g : Guard}
    (harm : nptGuardArm (patchedGuest 0x81 0x81) descriptorTables guestSession unarmedState = some (.armed armedSession g))
    (hregions : g.state.guardRegions.regions.tail = descriptorRegions) (htime : g.lastIntegrityCheckUs = 0)
    (idt gdt : U8) :
    eventViolations armedSession g (.poll (patchedGuest idt gdt) 1000000 none ⟨0, 0⟩) =
      descriptorRegions.filterMap fun r => (newMismatch (patchedGuest idt gdt) armedSession r).map fun hash =>
        ⟨r, hash, [npfHandlerReportIntegrityViolation r.name r.gpa r.baselineHash hash r.critical]⟩ := by
  obtain ⟨-, harmed, -, hread⟩ := arm_spec List.length_replicate harm
  obtain ⟨r, rest, hcons, htable⟩ := harmed.table
  have hclean : (vmiReadPhysical (patchedGuest idt gdt) armedSession armedSession.syscallTableGpa
      sysCallTableSize).bytes? = some g.state.cleanSyscallTable := by
    exact (patchedGuest_table idt gdt true).trans ((patchedGuest_table 0x81 0x81 false).symm.trans hread)
  have hdue : ¬ (¬ armedSession.nptArmed = true ∨ TooEarly g 1000000) := by
    rw [not_or]
    exact ⟨not_not.mpr rfl, fun hearly => hearly.1 htime⟩
  rw [hcons, List.tail_cons] at hregions
  rw [eventViolations, if_neg hdue, hcons, pollViolations, newMismatch_table htable hclean, hregions]
  exact pollViolations_others (by decide +kernel) ..

/-- One table that changes alone is voiced. -/
theorem lone_violation_voiced : ∃ g,
    nptGuardArm (patchedGuest 0x81 0x81) descriptorTables guestSession unarmedState = some (.armed armedSession g) ∧
      ((watchFrom g).step workingMap armedSession (pollOf (patchedGuest 0x41 0x81))).levels =
        [(ascii "idt", [.malicious])] ∧
      Along (Watch.step workingMap armedSession) (Voices armedSession) (watchFrom g) [pollOf (patchedGuest 0x41 0x81)] := by
  obtain ⟨g, harm, hregions, htime⟩ := descriptorTables_arm
  have hlevels : ((watchFrom g).step workingMap armedSession (pollOf (patchedGuest 0x41 0x81))).levels =
      [(ascii "idt", [.malicious])] := by
    rw [Watch.levels, pollOf, step_guard_found]
    simp only [watchFrom, patchedGuest_violations harm hregions htime]
    decide +kernel
  obtain ⟨-, -, hexact⟩ := violations_alerted_iff (patchedGuest 0x81 0x81) descriptorTables guestSession armedSession
    unarmedState List.length_replicate g harm workingMap (fun _ => none) [pollOf (patchedGuest 0x41 0x81)]
  refine ⟨g, harm, hlevels, hexact.mp ?_⟩
  intro pre hpre v hv
  cases pre with
  | nil => cases hv
  | cons e rest =>
    obtain ⟨rfl, hnil⟩ := List.cons_prefix_cons.mp hpre
    obtain rfl := List.prefix_nil.mp hnil
    have hmem : (v.1.region.name, v.2.map (·.threatLevel)) ∈ [(ascii "idt", [ThreatLevel.malicious])] := by
      rw [← hlevels, Watch.levels]
      exact List.mem_map_of_mem (f := fun v => (v.1.region.name, v.2.map (·.threatLevel))) hv
    rintro hempty
    rw [hempty] at hmem
    simp at hmem

/-- **A lost violation.** Both tables change between two polls. The report of the first is raised,
    that of the second is dropped as a duplicate, and no later poll over this memory repeats it. -/
theorem second_violation_lost : ∃ g,
    nptGuardArm (patchedGuest 0x81 0x81) descriptorTables guestSession unarmedState = some (.armed armedSession g) ∧
      ((watchFrom g).step workingMap armedSession (pollOf (patchedGuest 0x41 0x41))).levels =
        [(ascii "idt", [.malicious]), (ascii "gdt", [])] ∧
      ∀ later auth, eventViolations armedSession
        ((watchFrom g).step workingMap armedSession (pollOf (patchedGuest 0x41 0x41))).guard
        (.poll (patchedGuest 0x41 0x41) later none auth) = [] := by
  obtain ⟨g, harm, hregions, htime⟩ := descriptorTables_arm
  obtain ⟨-, harmed, -, -⟩ := arm_spec List.length_replicate harm
  refine ⟨g, harm, ?_, ?_⟩
  · rw [Watch.levels, pollOf, step_guard_found]
    simp only [watchFrom, patchedGuest_violations harm hregions htime]
    decide +kernel
  · intro later auth
    exact found_once rfl harmed (patchedGuest 0x41 0x41) (fun hearly => hearly.1 htime) later none ⟨0, 0⟩ auth

end SentinelStack.Vmi
