import SentinelStack.Vmi.Drawbridge
import SentinelStack.Vmi.GuardAlerts
import SentinelStack.Vmi.ProcessDetectors

/- The daemon (`main.c`): the session that `kvmi_setup` makes, the guard, the HEKI
   server, the detectors and the bridge, round after round.

   A round is a poll of the guard, one client at most, the four detectors and a
   flush of the queue. Each of them meets its own state of the guest; a round in
   which a call does not return is followed by no other.

   Main result: `daemon_confined` — over every run,
   1. the alert map changes at pid 0 only: the guard does not know the process
      behind a write, and the detectors need the address of `init_task`, which no
      code sets;
   2. a poll reports what it would report with no authorisation pending: the one
      call of the CPUID handler authorises 0x12345678, and the kernel's page table
      is page-aligned;
   3. a guard that was not armed at the start is silent for good;
   4. a daemon that has not learnt the kernel's page table still answers every
      registration with a nonce, and registers nothing.

   Left out are the heartbeat of the KVMI link, which touches none of this state,
   and the process list that `task_walker_dump` prints. -/
namespace SentinelStack.Vmi
open SentinelStack.Lib

/-! Suspicious ancestry. -/

def webTierNames : List CStr := [ascii "nginx", ascii "apache2", ascii "httpd", ascii "php-fpm"]

def shellNames : List CStr := [ascii "sh", ascii "bash", ascii "dash", ascii "zsh"]

def findProcessByPid (procs : List VmiProcess) (pid : U32) : Option VmiProcess := procs.find? (·.pid = pid)

/-- `snprintf(reason, 96, "suspicious_ancestry pid=%u parent=%u", …)`. -/
def ancestrySignal (proc parent : VmiProcess) : PrivilegeSignal :=
  ⟨proc.pid, (ascii "suspicious_ancestry pid=" ++ fmtDec proc.pid.toNat ++ ascii " parent=" ++
    fmtDec parent.pid.toNat).take 95⟩

/-- The loop over the snapshot: the signals, and how many detections it counts. -/
def ancestryLoop (procs : List VmiProcess) : List VmiProcess → List PrivilegeSignal × Nat
  | [] => ([], 0)
  | proc :: rest =>
    let later := ancestryLoop procs rest
    if ¬ stringInList (cstrOf proc.comm) shellNames then later
    else if proc.ppid = 0 then later
    else
      match findProcessByPid procs proc.ppid with
      | none => later
      | some parent =>
        if stringInList (cstrOf parent.comm) webTierNames then (ancestrySignal proc parent :: later.1, later.2 + 1)
        else later

/-- `none` is the return value -1. -/
def taskWalkerDetectSuspiciousAncestry (call : DetectCall) : Option (List PrivilegeSignal × Nat) :=
  (takeSnapshot call).map fun snapshot => ancestryLoop snapshot.val snapshot.val

/-! The state and the steps. -/

structure DaemonState where
  session : TaskSession
  guard : Guard
  hekiActiveNonce : U32
  auth : AuthState
  privilege : PrivilegeState
  bridge : BridgeState

/-- What one call of a detector meets; `clock n` are the readings for its `n`-th signal. -/
structure Scan where
  host : Host
  offsets : TaskOffsets
  callocOk : Bool
  clock : Nat → U64 × U64

structure Scans where
  privilege : Scan
  orphans : Scan
  forkBomb : Scan
  ancestry : Scan

structure Poll where
  host : Host
  now : U64
  allowPatch : Option CStr
  clock : Nat → U64 × U64

/-- A client that was accepted: what `rand` returns, and the bytes one `read` returns. -/
structure Client where
  host : Host
  rand : U32
  payload : List U8

structure Round where
  poll : Poll
  client : Option Client
  scans : Scans

namespace DaemonState

/-- The signals, one call into the bridge after the other. -/
def signal (env : MapEnv) (d : DaemonState) (clock : Nat → U64 × U64) (signals : List Signal) : DaemonState :=
  { d with bridge := run (bridgeStep env) d.bridge (signalOps clock 0 signals) }

/-- A detector's signals, all of them suspicious. -/
def suspect (env : MapEnv) (d : DaemonState) (scan : Scan) (found : Option (List PrivilegeSignal)) : DaemonState :=
  d.signal env scan.clock ((found.getD []).map fun s => .suspicious s.pid s.reason)

/-- The call a detector makes. -/
def call (d : DaemonState) (scan : Scan) : DetectCall := ⟨scan.host, d.session, scan.offsets, scan.callocOk⟩

/-- The four detectors, in turn. -/
def detect (env : MapEnv) (d : DaemonState) (scans : Scans) : DaemonState :=
  let escalations := taskWalkerDetectPrivilegeEscalation d.privilege (d.call scans.privilege)
  let d := suspect env { d with privilege := escalations.2 } scans.privilege escalations.1
  let d := d.suspect env scans.orphans ((taskWalkerDetectOrphans (d.call scans.orphans)).map (·.1))
  let d := d.suspect env scans.forkBomb ((taskWalkerDetectForkBomb (d.call scans.forkBomb) 256).map (·.1))
  d.suspect env scans.ancestry ((taskWalkerDetectSuspiciousAncestry (d.call scans.ancestry)).map (·.1))

/-- `npt_guard_handle_events`. -/
def pollGuard (env : MapEnv) (d : DaemonState) (p : Poll) : Option DaemonState :=
  (nptGuardHandleEvents p.host d.session.toVmiSession p.now p.allowPatch d.auth d.guard).map fun r =>
    signal env { d with guard := r.1, auth := r.2.2 } p.clock (r.2.1.filterMap (·.signal?))

def heki (d : DaemonState) : HekiState := ⟨d.guard.state, d.hekiActiveNonce, d.auth⟩

/-- `heki_server_poll`: nobody is there, or one client is served. -/
def hekiServerPoll (d : DaemonState) : Option Client → Option DaemonState
  | none => some d
  | some c =>
    (handleHekiClient c.host d.session.toVmiSession c.rand d.heki c.payload).map fun r =>
      { d with guard := { d.guard with state := r.2.guard }, hekiActiveNonce := r.2.hekiActiveNonce, auth := r.2.auth }

def flush (env : MapEnv) (d : DaemonState) : DaemonState := { d with bridge := bridgeFlushAlerts env d.bridge }

/-- One turn of the event loop. -/
def round (env : MapEnv) (d : DaemonState) (r : Round) : Option DaemonState := do
  let d ← d.pollGuard env r.poll
  let d ← d.hekiServerPoll r.client
  return (d.detect env r.scans).flush env

def rounds (env : MapEnv) (d : DaemonState) (rs : List Round) : Option DaemonState := rs.foldlM (round env) d

end DaemonState

/-! The start. -/

/-- What `kvmi_setup` and the calls before the event loop meet: the guest's memory as it was
    found, the answer to `KVM_GET_SREGS`, and the environment of `npt_guard_arm`. -/
structure Boot where
  memslots : List VmiMemslot
  qemuPid : Int
  cr3 : Option U64
  scans : Scans
  host : Host
  env : CStr → Option U64

namespace Boot

/-- The session is zeroed but for what `kvmi_setup` finds. -/
def session (b : Boot) : TaskSession where
  memslots := b.memslots
  qemuPid := b.qemuPid
  syscallTableGpa := 0
  syscallTableGva := 0
  nptArmed := false
  kaslrOffset := 0
  kernelPgd := (b.cr3.map (· &&& 0x000FFFFFFFFFF000)).getD 0
  initTaskAddr := 0

/-- Everything static is zero; the pinned map holds what it holds. -/
def zeroed (b : Boot) (vmiAlertMap : U32 → Option ThreatLevel) : DaemonState where
  session := b.session
  guard := ⟨unarmedState, 0⟩
  hekiActiveNonce := 0
  auth := npfHandlerClearAuthorized
  privilege := .init
  bridge := bridgeInit vmiAlertMap

/-- The calls before the event loop; `none` when `main` fails, or never gets there. The
    detectors come first, while the map is not open, and `bridge_init` empties the queue. -/
def start (b : Boot) (vmiAlertMap : U32 → Option ThreatLevel) : Option DaemonState :=
  let d := (b.zeroed vmiAlertMap).detect noMap b.scans
  match nptGuardArm b.host b.env d.session.toVmiSession d.guard.state with
  | some (.unresolved s g) | some (.armed s g) =>
    some { d with
      session := { d.session with toVmiSession := s }
      guard := g
      bridge := bridgeInit d.bridge.vmiAlertMap }
  | _ => none

end Boot

/-! What a bridge knows of pids. -/

/-- The map is the old one but at pids of `P`, and so it will be after the next flush. -/
structure OnlyPids (P : U32 → Prop) (vmiAlertMap : U32 → Option ThreatLevel) (s : BridgeState) : Prop where
  map : ∀ pid, ¬ P pid → s.vmiAlertMap pid = vmiAlertMap pid
  queue : ∀ q ∈ s.alertQueue.entries, P q.alert.pid

section bridge
variable {env : MapEnv} {P : U32 → Prop} {vmiAlertMap : U32 → Option ThreatLevel} {s : BridgeState}

theorem emitAlert_map {q : QueuedAlert} (hq : P q.alert.pid) {pid : U32} (hpid : ¬ P pid) :
    (emitAlert env s q).2.vmiAlertMap pid = s.vmiAlertMap pid := by
  have hne : pid ≠ q.alert.pid := fun h => hpid (h ▸ hq)
  unfold emitAlert writeAlertToMap
  dsimp only
  split
  · rw [Function.update_of_ne hne]
  · rfl

theorem flushLoop_map {qs : List QueuedAlert} (hqs : ∀ q ∈ qs, P q.alert.pid) {pid : U32} (hpid : ¬ P pid) :
    (flushLoop env s qs).vmiAlertMap pid = s.vmiAlertMap pid := by
  induction qs generalizing s with
  | nil => rfl
  | cons q qs ih =>
    obtain ⟨hq, hqs⟩ := List.forall_mem_cons.mp hqs
    rw [flushLoop, ih hqs]
    split
    · rfl
    · exact emitAlert_map hq hpid

theorem OnlyPids.flush (h : OnlyPids P vmiAlertMap s) : OnlyPids P vmiAlertMap (bridgeFlushAlerts env s) := by
  unfold bridgeFlushAlerts
  split
  · exact h
  · refine ⟨fun pid hpid => ?_, List.forall_mem_nil _⟩
    exact (flushLoop_map h.queue hpid).trans (h.map pid hpid)

theorem OnlyPids.push (h : OnlyPids P vmiAlertMap s) {alert : VmiAlert} (halert : P alert.pid) (immediate : Bool)
    (hroom : s.alertQueue.entries.length < alertQueueSize) :
    OnlyPids P vmiAlertMap (pushAlert env s alert immediate hroom) where
  map := by
    intro pid hpid
    unfold pushAlert
    dsimp only
    split
    · exact (emitAlert_map (q := ⟨alert, false⟩) halert hpid).trans (h.map pid hpid)
    · exact h.map pid hpid
  queue := by
    intro q hq
    rcases List.mem_append.mp hq with hq | hq
    · exact h.queue q hq
    · obtain rfl := List.mem_singleton.mp hq
      exact halert

theorem OnlyPids.enqueue (h : OnlyPids P vmiAlertMap s) {pid : U32} (hpid : P pid) (level : ThreatLevel)
    (reason : Option CStr) (immediate : Bool) (stampNs : U64) :
    OnlyPids P vmiAlertMap (enqueueAlert env s pid level reason immediate stampNs) := by
  have hroom : OnlyPids P vmiAlertMap
      (if s.alertQueue.entries.length ≥ alertQueueSize then bridgeFlushAlerts env s else s) := by
    split
    · exact h.flush
    · exact h
  unfold enqueueAlert
  dsimp only
  generalize (if s.alertQueue.entries.length ≥ alertQueueSize then bridgeFlushAlerts env s else s) = s' at hroom
  split
  · exact hroom.push hpid immediate _
  · exact hroom

/-- A signal for a pid of `P` keeps to `P`. -/
theorem OnlyPids.signal (h : OnlyPids P vmiAlertMap s) (requested : ThreatLevel) (immediate : ThreatLevel → Bool)
    {pid : U32} (hpid : P pid) (reason : Option CStr) (nowNs stampNs : U64) :
    OnlyPids P vmiAlertMap (bridgeSignal requested immediate env s pid reason nowNs stampNs) := by
  unfold bridgeSignal
  dsimp only
  split
  · exact ⟨h.map, h.queue⟩
  · refine OnlyPids.enqueue ?_ hpid ..
    exact ⟨h.map, h.queue⟩

end bridge

theorem bridgeStep_malicious (env : MapEnv) (s : BridgeState) (pid : U32) (reason : CStr) (clock : U64 × U64) :
    bridgeSignal .malicious (fun _ => true) env s pid (some reason) clock.1 clock.2 =
      bridgeStep env s ((Signal.malicious pid reason).op clock) := rfl

theorem bridgeStep_suspicious (env : MapEnv) (s : BridgeState) (pid : U32) (reason : CStr) (clock : U64 × U64) :
    bridgeSignal .suspicious (fun effective => effective = .malicious) env s pid (some reason) clock.1 clock.2 =
      bridgeStep env s ((Signal.suspicious pid reason).op clock) := rfl

def Signal.pid : Signal → U32
  | .malicious pid _ => pid
  | .suspicious pid _ => pid

/-- And so do a poll's or a detector's. -/
theorem OnlyPids.signals {env : MapEnv} {P : U32 → Prop} {vmiAlertMap : U32 → Option ThreatLevel} {s : BridgeState}
    (h : OnlyPids P vmiAlertMap s) (clock : Nat → U64 × U64) (n : Nat) {signals : List Signal}
    (hsignals : ∀ signal ∈ signals, P signal.pid) :
    OnlyPids P vmiAlertMap (run (bridgeStep env) s (signalOps clock n signals)) := by
  induction signals generalizing s n with
  | nil => exact h
  | cons signal rest ih =>
    obtain ⟨hfirst, hrest⟩ := List.forall_mem_cons.mp hsignals
    have hstep : OnlyPids P vmiAlertMap (bridgeStep env s (signal.op (clock n))) := by
      cases signal with
      | malicious pid reason => exact bridgeStep_malicious env s pid reason (clock n) ▸ h.signal _ _ hfirst ..
      | suspicious pid reason => exact bridgeStep_suspicious env s pid reason (clock n) ▸ h.signal _ _ hfirst ..
    exact ih hstep (n + 1) hrest

/-! What a poll does without an authorisation. -/

section poll
variable {host : Host} {s : VmiSession} {allowPatch : Option CStr} {auth : AuthState}

theorem not_pending_clear (s : VmiSession) : ¬ Pending s npfHandlerClearAuthorized := by
  rw [pending_iff]
  exact fun hpending => hpending.1 hpending.2.symm

/-- Without one, the handler decides as if there had never been any. -/
theorem process_unauthorised (h : ¬ Pending s auth) (regions : List GuardRegion) (gpa : U64) (writeAccess : Bool) :
    npfHandlerProcess s auth allowPatch regions gpa writeAccess =
      ((npfHandlerProcess s npfHandlerClearAuthorized allowPatch regions gpa writeAccess).1, auth) := by
  rw [npfHandlerProcess_eq, npfHandlerProcess_eq]
  by_cases hhostile : Hostile s allowPatch regions gpa writeAccess
  · rw [if_neg (not_not.mpr hhostile), if_neg (not_not.mpr hhostile), if_neg h, if_neg (not_pending_clear s)]
  · rw [if_pos hhostile, if_pos hhostile]

theorem processWrites_unauthorised (h : ¬ Pending s auth) (regions : List GuardRegion) (gpas : List U64) :
    processWrites s allowPatch regions auth gpas =
      ((processWrites s allowPatch regions npfHandlerClearAuthorized gpas).1, auth) := by
  induction gpas with
  | nil => rfl
  | cons gpa rest ih =>
    rw [processWrites, processWrites, process_unauthorised h, process_unauthorised (not_pending_clear s)]
    dsimp only
    rw [ih]

theorem tableDiffs_unauthorised (h : ¬ Pending s auth) (gs : GuardState) :
    reportSyscallTableDiffs host s gs allowPatch auth =
      ((reportSyscallTableDiffs host s gs allowPatch npfHandlerClearAuthorized).1, auth) := by
  unfold reportSyscallTableDiffs
  split
  · rfl
  · split
    · rfl
    · exact processWrites_unauthorised h ..

/-- **A poll without an authorisation** leaves it at that, and reports everything. -/
theorem pollReports_unauthorised (h : ¬ Pending s auth) (gs : GuardState) (regions : List GuardRegion) :
    pollReports host s gs allowPatch auth regions =
      ((pollReports host s gs allowPatch npfHandlerClearAuthorized regions).1, auth) := by
  induction regions with
  | nil => rfl
  | cons r rest ih =>
    rw [pollReports, pollReports]
    cases newMismatch host s r with
    | none => exact ih
    | some hash =>
      dsimp only
      by_cases htable : r.name = ascii "sys_call_table"
      · rw [if_pos htable, if_pos htable, tableDiffs_unauthorised h, tableDiffs_unauthorised (not_pending_clear s)]
        dsimp only
        rw [ih]
      · rw [if_neg htable, if_neg htable]
        dsimp only
        rw [ih]

/-- The handler's signals are for the pid it takes for unknown. -/
theorem processWrites_pid (regions : List GuardRegion) (gpas : List U64) :
    ∀ signal ∈ (processWrites s allowPatch regions auth gpas).1.filterMap (·.signal?), signal.pid = 0 := by
  induction gpas generalizing auth with
  | nil => exact List.forall_mem_nil _
  | cons gpa rest ih =>
    have hfirst : ∀ signal ∈ (npfHandlerProcess s auth allowPatch regions gpa true).1, signal.pid = 0 := by
      rw [npfHandlerProcess_eq]
      intro signal hsignal
      split at hsignal
      · cases hsignal
      · split at hsignal
        · cases hsignal
        · cases hsignal
          unfold hostileSignal
          split
          · rfl
          · dsimp only
            split <;> rfl
    intro signal hsignal
    rw [processWrites] at hsignal
    rcases List.mem_filterMap.mp hsignal with ⟨report, hreport, hsome⟩
    rcases List.mem_cons.mp hreport with rfl | hreport
    · exact hfirst signal hsome
    · exact ih signal (List.mem_filterMap.mpr ⟨report, hreport, hsome⟩)

/-- So are all signals of a poll. -/
theorem pollReports_pid (gs : GuardState) (regions : List GuardRegion) :
    ∀ signal ∈ (pollReports host s gs allowPatch auth regions).1.filterMap (·.signal?), signal.pid = 0 := by
  induction regions generalizing auth with
  | nil => exact List.forall_mem_nil _
  | cons r rest ih =>
    rw [pollReports]
    cases newMismatch host s r with
    | none => exact ih
    | some hash =>
      dsimp only
      intro signal hsignal
      rw [List.filterMap_append] at hsignal
      rcases List.mem_append.mp hsignal with hsignal | hsignal
      · split at hsignal
        · unfold reportSyscallTableDiffs at hsignal
          split at hsignal
          · cases hsignal
          · split at hsignal
            · cases hsignal
            · exact processWrites_pid _ _ signal hsignal
        · rw [List.filterMap_cons, List.filterMap_nil] at hsignal
          obtain rfl := List.mem_singleton.mp hsignal
          unfold npfHandlerReportIntegrityViolation
          dsimp only
          split <;> rfl
      · exact ih signal hsignal

end poll

/-! The invariant of the loop. -/

/-- The authorisation that the mocked CPUID exit gives. -/
def mockedCr3 : U64 := 0x12345678

structure DaemonState.Confined (vmiAlertMap : U32 → Option ThreatLevel) (d : DaemonState) : Prop where
  init : d.session.initTaskAddr = 0
  pgd : d.session.kernelPgd ≠ mockedCr3
  auth : d.auth.authorizedCr3 = 0 ∨ d.auth.authorizedCr3 = mockedCr3
  pids : OnlyPids (· = 0) vmiAlertMap d.bridge
  idle : d.session.nptArmed = false → d.bridge = bridgeInit vmiAlertMap

namespace DaemonState

variable {env : MapEnv} {vmiAlertMap : U32 → Option ThreatLevel} {d d' : DaemonState}

theorem Confined.not_pending (h : d.Confined vmiAlertMap) : ¬ Pending d.session.toVmiSession d.auth := by
  rw [pending_iff]
  rintro ⟨hpgd, hcr3⟩
  rcases h.auth with hauth | hauth
  · exact hpgd (hcr3.symm.trans hauth)
  · exact h.pgd (hcr3.symm.trans hauth)

/-- Without the address of `init_task` no detector takes a snapshot. -/
theorem detect_idle (h : d.session.initTaskAddr = 0) (env : MapEnv) (scans : Scans) : d.detect env scans = d := by
  have hnone : ∀ scan, takeSnapshot (d.call scan) = none := fun scan => if_pos (.inl h)
  have hprivilege : taskWalkerDetectPrivilegeEscalation d.privilege (d.call scans.privilege) = (none, d.privilege) := by
    rw [taskWalkerDetectPrivilegeEscalation, hnone]
    rfl
  have horphans : taskWalkerDetectOrphans (d.call scans.orphans) = none := by
    rw [taskWalkerDetectOrphans, hnone]
    rfl
  have hforks : taskWalkerDetectForkBomb (d.call scans.forkBomb) 256 = none := by
    rw [taskWalkerDetectForkBomb, hnone]
    rfl
  have hancestry : taskWalkerDetectSuspiciousAncestry (d.call scans.ancestry) = none := by
    rw [taskWalkerDetectSuspiciousAncestry, hnone]
    rfl
  have hsuspect : ∀ scan, d.suspect env scan none = d := fun _ => rfl
  unfold detect
  dsimp only
  rw [hprivilege]
  dsimp only
  rw [hsuspect, horphans, Option.map_none, hsuspect, hforks, Option.map_none, hsuspect, hancestry, Option.map_none,
    hsuspect]

theorem pollGuard_confined (h : d.Confined vmiAlertMap) {p : Poll} (hpoll : d.pollGuard env p = some d') :
    d'.Confined vmiAlertMap := by
  obtain ⟨⟨guard, reports, auth⟩, hevents, rfl⟩ := Option.map_eq_some_iff.mp hpoll
  rcases handleEvents_cases hevents with ⟨-, -, rfl, rfl⟩ | ⟨hdue, hreports, -⟩
  · exact ⟨h.init, h.pgd, h.auth, h.pids, h.idle⟩
  · obtain ⟨hsignals, hauth⟩ := Prod.mk.inj (hreports.trans (pollReports_unauthorised h.not_pending _ _))
    have hpids : ∀ signal ∈ reports.filterMap (·.signal?), signal.pid = 0 := by
      rw [hsignals]
      exact pollReports_pid _ _
    have harmed : d.session.nptArmed = true := by
      by_contra hnot
      exact hdue (.inl hnot)
    refine ⟨h.init, h.pgd, ?_, h.pids.signals p.clock 0 hpids, fun hidle => ?_⟩
    · show auth.authorizedCr3 = 0 ∨ auth.authorizedCr3 = mockedCr3
      rw [hauth]
      exact h.auth
    · exact absurd (harmed.symm.trans hidle) Bool.noConfusion

theorem hekiServerPoll_confined (h : d.Confined vmiAlertMap) {client : Option Client}
    (hpoll : d.hekiServerPoll client = some d') : d'.Confined vmiAlertMap := by
  cases client with
  | none =>
    cases hpoll
    exact h
  | some c =>
    obtain ⟨⟨response, st⟩, hclient, rfl⟩ := Option.map_eq_some_iff.mp hpoll
    refine ⟨h.init, h.pgd, ?_, h.pids, h.idle⟩
    -- the one authorisation that a message can give is the mocked one
    rcases handleHekiClient_cases hclient with ⟨-, -, hauth, -⟩ | ⟨-, -, hauth⟩
    · exact hauth ▸ h.auth
    · show st.auth.authorizedCr3 = 0 ∨ _
      rw [hauth]
      cases mockedNonce c.payload with
      | none => exact h.auth
      | some ecx =>
        rw [Option.map_some, Option.getD_some, npfHandlerCpuidIntercept_eq]
        split
        · exact .inr rfl
        · exact h.auth

theorem flush_confined (h : d.Confined vmiAlertMap) : (d.flush env).Confined vmiAlertMap where
  init := h.init
  pgd := h.pgd
  auth := h.auth
  pids := h.pids.flush
  idle := by
    intro hidle
    show bridgeFlushAlerts env d.bridge = _
    rw [h.idle hidle]
    rfl

theorem pollGuard_session {p : Poll} (h : d.pollGuard env p = some d') : d'.session = d.session := by
  obtain ⟨-, -, rfl⟩ := Option.map_eq_some_iff.mp h
  rfl

theorem hekiServerPoll_session {client : Option Client} (h : d.hekiServerPoll client = some d') :
    d'.session = d.session := by
  cases client with
  | none =>
    cases h
    rfl
  | some c =>
    obtain ⟨-, -, rfl⟩ := Option.map_eq_some_iff.mp h
    rfl

/-- **One round.** -/
theorem round_confined (h : d.Confined vmiAlertMap) {r : Round} (hround : d.round env r = some d') :
    d'.Confined vmiAlertMap ∧ d'.session = d.session := by
  obtain ⟨d₁, hpoll, hround⟩ := Option.bind_eq_some_iff.mp hround
  obtain ⟨d₂, hserve, hround⟩ := Option.bind_eq_some_iff.mp hround
  cases hround
  have h₂ := hekiServerPoll_confined (pollGuard_confined h hpoll) hserve
  have hsession : d₂.session = d.session := (hekiServerPoll_session hserve).trans (pollGuard_session hpoll)
  rw [detect_idle h₂.init]
  exact ⟨flush_confined h₂, hsession⟩

/-- **Any number of them.** -/
theorem rounds_confined {rs : List Round} (h : d.Confined vmiAlertMap) (hrun : d.rounds env rs = some d') :
    d'.Confined vmiAlertMap ∧ d'.session = d.session := by
  induction rs generalizing d with
  | nil =>
    cases hrun
    exact ⟨h, rfl⟩
  | cons r rs ih =>
    obtain ⟨d₁, hround, hrest⟩ := Option.bind_eq_some_iff.mp hrun
    obtain ⟨h₁, hsession₁⟩ := round_confined h hround
    obtain ⟨h', hsession'⟩ := ih h₁ hrest
    exact ⟨h', hsession'.trans hsession₁⟩

end DaemonState

/-- Arming sets what it resolved, not the page table. -/
theorem nptGuardArm_session {host : Host} {env : CStr → Option U64} {s s' : VmiSession} {gs : GuardState} {g : Guard}
    (h : nptGuardArm host env s gs = some (.unresolved s' g) ∨ nptGuardArm host env s gs = some (.armed s' g)) :
    s'.kernelPgd = s.kernelPgd := by
  unfold nptGuardArm at h
  dsimp only at h
  split at h
  · rcases h with h | h <;> cases h
    rfl
  · split at h
    · rcases h with h | h <;> cases h
      rfl
    · split at h
      · rcases h with h | h <;> cases h
      · split at h
        · rcases h with h | h
          · obtain ⟨pages, -, hpages⟩ := Option.map_eq_some_iff.mp h
            cases hpages
          · obtain ⟨pages, -, hpages⟩ := Option.map_eq_some_iff.mp h
            cases hpages
            rfl
        · rcases h with h | h <;> cases h

theorem Boot.kernelPgd_ne (b : Boot) : b.session.kernelPgd ≠ mockedCr3 := by
  show (b.cr3.map (· &&& 0x000FFFFFFFFFF000)).getD 0 ≠ mockedCr3
  cases b.cr3 with
  | none => decide
  | some cr3 =>
    intro h
    -- bit 3 is masked out of the page table, and set in the mocked one
    have hbit : (cr3 &&& 0x000FFFFFFFFFF000).getLsbD 3 = mockedCr3.getLsbD 3 := congrArg (·.getLsbD 3) h
    rw [BitVec.getLsbD_and] at hbit
    exact absurd hbit (by simp [mockedCr3])

/-- The loop begins confined. -/
theorem Boot.start_confined {b : Boot} {vmiAlertMap : U32 → Option ThreatLevel} {d : DaemonState}
    (h : b.start vmiAlertMap = some d) : d.Confined vmiAlertMap := by
  have hbridge : OnlyPids (· = 0) vmiAlertMap (bridgeInit vmiAlertMap) :=
    ⟨fun _ _ => rfl, List.forall_mem_nil _⟩
  unfold Boot.start at h
  dsimp only at h
  rw [DaemonState.detect_idle (d := b.zeroed vmiAlertMap) rfl] at h
  split at h
  · next harm =>
    cases h
    exact ⟨rfl, fun hpgd => b.kernelPgd_ne ((nptGuardArm_session (.inl harm)).symm.trans hpgd), .inl rfl, hbridge,
      fun _ => rfl⟩
  · next harm =>
    cases h
    exact ⟨rfl, fun hpgd => b.kernelPgd_ne ((nptGuardArm_session (.inr harm)).symm.trans hpgd), .inl rfl, hbridge,
      fun _ => rfl⟩
  · cases h

/-- Without the kernel's page table, a registration is answered with a nonce and leaves the guard alone. -/
theorem handleHekiClient_blind {s : VmiSession} (hpgd : s.kernelPgd = 0) (st : HekiState) (c : Client)
    {reg : HekiRegistration} (hread : readRegistration c.payload = some reg) (hmagic : reg.magic = hekiMagic) :
    ∃ nonce st', handleHekiClient c.host s c.rand st c.payload = some (nonce, st') ∧ nonce ≠ 0 ∧
      st'.guard = st.guard := by
  have hnonce : nonceOr 3039 st.hekiActiveNonce ≠ 0 := by
    unfold nonceOr
    split
    · decide
    · assumption
  refine ⟨_, { st with hekiActiveNonce := nonceOr 3039 st.hekiActiveNonce }, ?_, hnonce, rfl⟩
  rw [handleHekiClient, hread]
  dsimp only
  rw [if_pos hmagic, registerMap, if_pos hpgd]

/-- **What the daemon can come to.** After every start and any number of rounds, over any guest, any
    clients and any outcomes of the map's updates: the alert map is the one it found, but at pid 0; a
    poll reports what it would with no authorisation pending; if the guard was not armed at the start,
    the bridge is as it was initialised; and if the start has not found the kernel's page table, the
    next registration is answered with a nonce all the same. -/
theorem daemon_confined (b : Boot) (env : MapEnv) (vmiAlertMap : U32 → Option ThreatLevel) (d₀ d : DaemonState)
    (rs : List Round) (hstart : b.start vmiAlertMap = some d₀) (hrun : d₀.rounds env rs = some d) :
    (∀ pid, pid ≠ 0 → d.bridge.vmiAlertMap pid = vmiAlertMap pid) ∧
      (∀ p : Poll, (nptGuardHandleEvents p.host d.session.toVmiSession p.now p.allowPatch d.auth d.guard).map (·.2.1) =
        (nptGuardHandleEvents p.host d.session.toVmiSession p.now p.allowPatch npfHandlerClearAuthorized d.guard).map
          (·.2.1)) ∧
      (d₀.session.nptArmed = false → d.bridge = bridgeInit vmiAlertMap) ∧
      (d₀.session.kernelPgd = 0 → ∀ (c : Client) (reg : HekiRegistration), readRegistration c.payload = some reg →
        reg.magic = hekiMagic → ∃ nonce st,
          handleHekiClient c.host d.session.toVmiSession c.rand d.heki c.payload = some (nonce, st) ∧
          nonce ≠ 0 ∧ st.guard = d.guard.state) := by
  obtain ⟨h, hsession⟩ := DaemonState.rounds_confined (Boot.start_confined hstart) hrun
  refine ⟨h.pids.map, fun p => ?_, fun hidle => h.idle ((congrArg (·.nptArmed) hsession).trans hidle),
    fun hpgd c reg => handleHekiClient_blind ((congrArg (·.kernelPgd) hsession).trans hpgd) d.heki c⟩
  unfold nptGuardHandleEvents
  split
  · rfl
  · dsimp only
    rw [pollReports_unauthorised h.not_pending, Option.map_map, Option.map_map]
    rfl

/-- A scan that meets this guest. -/
def scanOf (host : Host) : Scan := ⟨host, offsets66, true, fun _ => (0, 0)⟩

def scansOf (host : Host) : Scans := ⟨scanOf host, scanOf host, scanOf host, scanOf host⟩

/-- A start without `KVM_GET_SREGS`. -/
def blindBoot : Boot := ⟨[⟨0, 0x10000, 0, 0, 0⟩], 0, none, scansOf identityHost, identityHost, fun _ => none⟩

/-- A round in which a client registers a map. -/
def registeringRound : Round :=
  ⟨⟨identityHost, 1000000, none, fun _ => (0, 0)⟩, some ⟨identityHost, 0, mapPayload⟩, scansOf identityHost⟩

/-- The client has its nonce and the next one will have one, and nothing will ever be reported. -/
theorem daemon_confined_blind : ∃ d₀ d, blindBoot.start (fun _ => none) = some d₀ ∧
    d₀.rounds workingMap [registeringRound] = some d ∧ d.hekiActiveNonce = 3039 ∧
    (d.bridge = bridgeInit fun _ => none) ∧
    ∃ nonce st, handleHekiClient identityHost d.session.toVmiSession 0 d.heki mapPayload = some (nonce, st) ∧
      nonce ≠ 0 ∧ st.guard = d.guard.state := by
  obtain ⟨d₀, hstart, harmed, hpgd, d, hrun, hnonce⟩ : ∃ d₀, blindBoot.start (fun _ => none) = some d₀ ∧
      d₀.session.nptArmed = false ∧ d₀.session.kernelPgd = 0 ∧
      ∃ d, d₀.rounds workingMap [registeringRound] = some d ∧ d.hekiActiveNonce = 3039 := by
    unfold Boot.start
    dsimp only
    rw [DaemonState.detect_idle (d := blindBoot.zeroed fun _ => none) rfl]
    exact ⟨_, rfl, rfl, rfl, _, rfl, rfl⟩
  have hread : readRegistration mapPayload = some mapRegistration := by decide +kernel
  obtain ⟨-, -, hsilent, hanswered⟩ :=
    daemon_confined blindBoot workingMap (fun _ => none) d₀ d [registeringRound] hstart hrun
  exact ⟨d₀, d, hstart, hrun, hnonce, hsilent harmed, hanswered hpgd ⟨identityHost, 0, mapPayload⟩ _ hread rfl⟩

end SentinelStack.Vmi
