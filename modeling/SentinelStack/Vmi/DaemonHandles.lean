import SentinelStack.Vmi.AlertStream
import SentinelStack.Vmi.SessionHandles

/- The handles of the whole daemon (`main.c`): the session, the bridge with its map
   and its alert stream, and the HEKI server.

   What the detectors, the guard and the clients read and report is left to the
   system (`Work`); each piece of it is the sequence of its calls. Over every run from
   the start to the exit, `daemon_handles`: no handle is used or closed that is not
   open and all are closed at the end, but for the listening socket of the HEKI
   server, if and only if that server is not asked for or its `bind` and `listen`
   cannot fail. When one of them fails the socket is closed and its number kept, and
   the first poll calls `accept` on it. -/
namespace SentinelStack.Vmi.Daemon
open SentinelStack.Lib

/-! The bridge. -/

/-- The static state of `bridge.c`, as far as it holds handles. -/
structure LiveBridge where
  cfg : StreamConfig
  host : CStr
  helperCmd : CStr
  mapFd : Option Nat
  streamFd : Option Nat
  helper : Option Nat
  nextReconnectNs : U64
  backoffNs : U64

namespace LiveBridge

def handles (b : LiveBridge) : Ledger HandleKind :=
  held HandleKind.fd b.mapFd + held HandleKind.fd b.streamFd + held HandleKind.file b.helper

/-- What the stream's own model has of it. -/
def stream (b : LiveBridge) : StreamState := ⟨b.streamFd.isSome, b.helper.isSome, b.nextReconnectNs, b.backoffNs⟩

/-- Before `bridge_init`. -/
def initial : LiveBridge := ⟨⟨false, .tcp, false⟩, [], [], none, none, none, 0, streamReconnectBaseNs⟩

/-- `schedule_stream_reconnect`. -/
def schedule (b : LiveBridge) (nowNs : U64) : LiveBridge :=
  let s := scheduleStreamReconnect b.stream nowNs
  { b with nextReconnectNs := s.nextReconnectNs, backoffNs := s.backoffNs }

def reset (b : LiveBridge) : LiveBridge := { b with nextReconnectNs := 0, backoffNs := streamReconnectBaseNs }

end LiveBridge

/-- `pclose`, if there is a helper. -/
def closeHelper (helper : Option Nat) : VmiProg Unit := do
  match helper with
  | none => return ()
  | some fp => release (.file, fp)

def streamDisconnect (b : LiveBridge) : VmiProg LiveBridge := do
  closeFd b.streamFd
  closeHelper b.helper
  return { b with streamFd := none, helper := none }

/-- The connection of the TCP mode: a socket, the address, `connect`. -/
def connectTcp (host : CStr) : VmiProg (Option Nat) := do
  match ← acquire .socket with
  | none => return none
  | some fd =>
    if ¬ (← Sys.inetPton) then
      release (.fd, fd)
      return none
    else
      use (.fd, fd)
      if ¬ (← Sys.connect host) then
        release (.fd, fd)
        return none
      else return some fd

def streamConnectIfNeeded (b : LiveBridge) (nowNs : U64) : VmiProg (Bool × LiveBridge) := do
  if ¬ b.cfg.enabled then return (false, b)
  else if b.stream.connected b.cfg.mode then return (true, b)
  else if b.nextReconnectNs ≠ 0 ∧ nowNs < b.nextReconnectNs then return (false, b)
  else
    match b.cfg.mode with
    | .helper =>
      match ← acquire (.popen b.helperCmd) with
      | none => return (false, b.schedule nowNs)
      | some fp => return (true, { b with helper := some fp }.reset)
    | .tcp =>
      match ← connectTcp b.host with
      | none => return (false, b.schedule nowNs)
      | some fd => return (true, { b with streamFd := some fd }.reset)

/-- The write to the connection of the mode, if there is one. -/
def streamWrite (b : LiveBridge) : VmiProg Bool := do
  match b.cfg.mode with
  | .helper =>
    match b.helper with
    | none => return false
    | some fp =>
      use (.file, fp)
      Sys.transferred
  | .tcp =>
    match b.streamFd with
    | none => return false
    | some fd =>
      use (.fd, fd)
      Sys.write fd

def streamSendAlert (b : LiveBridge) (alert : VmiAlert) : VmiProg LiveBridge := do
  let (ok, b) ← streamConnectIfNeeded b alert.timestampNs
  let len := (streamPayload b.cfg alert).length
  if ¬ ok ∨ len = 0 ∨ len ≥ streamPayloadSize then return b
  else if b.cfg.mode = .helper ∧ b.helper.isNone then return b
  else if ← streamWrite b then return b
  else
    let b ← streamDisconnect b
    return b.schedule alert.timestampNs

def writeAlertToMap (b : LiveBridge) : VmiProg Unit := do
  match b.mapFd with
  | none => return ()
  | some fd =>
    use (.fd, fd)
    let _ ← Sys.write fd
    return ()

def emitAlert (b : LiveBridge) (alert : VmiAlert) : VmiProg LiveBridge := do
  writeAlertToMap b
  streamSendAlert b alert

/-- `bridge_init`: the stream's configuration and the map. -/
def bridgeInit (getenv : CStr → Option CStr) : VmiProg LiveBridge := do
  let host := strncpyz 64 ((envValue getenv (ascii "VMI_ALERT_STREAM_HOST")).getD (ascii "127.0.0.1"))
  let helperCmd := strncpyz 256 ((envValue getenv (ascii "VMI_ALERT_GRPC_HELPER_CMD")).getD [])
  let mapFd ← acquire (.bpfObjGet (ascii "/sys/fs/bpf/vmi_alert_map"))
  return ⟨parseStreamConfig getenv, host, helperCmd, mapFd, none, none, 0, streamReconnectBaseNs⟩

/-! The work of the daemon. -/

/-- So many calls of `read`. -/
def readLoop (fd : Nat) : Nat → VmiProg Unit
  | 0 => return ()
  | n + 1 => do
    use (.fd, fd)
    readLoop fd n

/-- `read_via_devmem`. -/
def readViaDevmem : VmiProg Unit := do
  match ← acquire (.openFile (ascii "/dev/mem")) with
  | none => return ()
  | some fd =>
    readLoop fd (← Sys.readCalls)
    release (.fd, fd)

/-- The slots are looked up in the table of the session. -/
def useMemslots (s : LiveSession) : VmiProg Unit := do
  match s.memslots with
  | none => return ()
  | some m => use (.heap, m.1)

def vmiReadPhysical (s : LiveSession) : VmiProg Unit := do
  use (.heap, s.self)
  useMemslots s
  if ← Sys.transferred then return () else readViaDevmem

def setPageReadonly (s : LiveSession) : VmiProg Unit := do
  use (.heap, s.self)
  useMemslots s
  match s.vmFd with
  | none => return ()
  | some fd => use (.fd, fd)

def act (s : LiveSession) (b : LiveBridge) : Activity → VmiProg LiveBridge
  | .readPhysical => do
    vmiReadPhysical s
    return b
  | .setPageReadonly => do
    setPageReadonly s
    return b
  | .alert alert => emitAlert b alert

def actAll (s : LiveSession) : LiveBridge → List Activity → VmiProg LiveBridge
  | b, [] => return b
  | b, a :: rest => do
    let b ← act s b a
    actAll s b rest

/-- The output of `bpftool`, read to its end. -/
def btfDump : VmiProg Unit := do
  if ¬ (← Sys.access (ascii "/sys/kernel/btf/vmlinux")) then return ()
  else
    match ← acquire (.popen (ascii "bpftool btf dump file /sys/kernel/btf/vmlinux format raw 2>/dev/null")) with
    | none => return ()
    | some fp =>
      use (.file, fp)
      release (.file, fp)

def perform (s : LiveSession) (b : LiveBridge) : Work → VmiProg LiveBridge
  | .activity a => act s b a
  | .snapshot inner => do
    match ← acquire .calloc with
    | none => return b
    | some procs =>
      let b ← actAll s b inner
      use (.heap, procs)
      release (.heap, procs)
      return b
  | .btfDump => do
    btfDump
    return b

def performAll (s : LiveSession) : LiveBridge → List Work → VmiProg LiveBridge
  | b, [] => return b
  | b, w :: rest => do
    let b ← perform s b w
    performAll s b rest

/-- Whatever is to be done next. -/
def workOn (s : LiveSession) (b : LiveBridge) : VmiProg LiveBridge := do
  performAll s b (← Sys.work)

/-! The HEKI server. -/

/-- `heki_server_init`: what `heki_listen_fd` is afterwards. -/
def hekiServerInit (socketPath : CStr) : VmiProg (Option Nat) := do
  match ← acquire .socket with
  | none => return none
  | some fd =>
    use (.fd, fd)
    if ¬ (← Sys.bind socketPath) then
      release (.fd, fd)
      return some fd
    else if ¬ (← Sys.listen) then
      release (.fd, fd)
      return some fd
    else return some fd

def handleHekiClient (s : LiveSession) (b : LiveBridge) (client : Nat) : VmiProg LiveBridge := do
  use (.fd, client)
  let b ← workOn s b
  use (.fd, client)
  release (.fd, client)
  return b

def hekiServerPoll (s : LiveSession) (b : LiveBridge) (listenFd : Option Nat) : VmiProg LiveBridge := do
  match listenFd with
  | none => return b
  | some fd =>
    use (.fd, fd)
    match ← acquire (.accept fd) with
    | none => return b
    | some client => handleHekiClient s b client

/-! The main function. -/

def mainRound (listenFd : Option Nat) (s : LiveSession) (b : LiveBridge) : VmiProg (LiveSession × LiveBridge) := do
  let (_, s) ← kvmiSessionHeartbeat s
  let b ← workOn s b
  let b ← hekiServerPoll s b listenFd
  let b ← workOn s b
  return (s, b)

def mainLoop (listenFd : Option Nat) : Nat → LiveSession → LiveBridge → VmiProg (LiveSession × LiveBridge)
  | 0, s, b => return (s, b)
  | n + 1, s, b => do
    let (s, b) ← mainRound listenFd s b
    mainLoop listenFd n s b

/-- `bridge_teardown`, with its last flush. -/
def bridgeTeardown (s : LiveSession) (b : LiveBridge) : VmiProg Unit := do
  let b ← workOn s b
  closeFd b.mapFd
  let _ ← streamDisconnect { b with mapFd := none }
  return ()

def hekiVmiSocket : CStr := ascii "TELOS_HEKI_VMI_SOCKET"

def startHeki (getenv : CStr → Option CStr) : VmiProg (Option Nat) := do
  match getenv hekiVmiSocket with
  | none => return none
  | some path => hekiServerInit path

/-- From the bridge on. -/
def serve (getenv : CStr → Option CStr) (s : LiveSession) : VmiProg Int := do
  let b ← bridgeInit getenv
  let listenFd ← startHeki getenv
  let (s, b) ← mainLoop listenFd (← Sys.rounds) s b
  bridgeTeardown s b
  -- `npt_guard_disarm`
  use (.heap, s.self)
  kvmiTeardown s
  return 0

/-- `main`; `vmName` is its argument, if it has one. -/
def main (vmName : Option CStr) (getenv : CStr → Option CStr) : VmiProg Int := do
  match vmName with
  | none => return 1
  | some vmName =>
    match ← kvmiSetup getenv vmName with
    | none => return 1
    | some s =>
      -- the first look at the processes, and arming; the bridge is not there yet
      let _ ← workOn s .initial
      if ¬ (← Sys.armed) then
        kvmiTeardown s
        return 1
      else serve getenv s

/-! The bridge keeps its handles. -/

section specs

variable {allowed : (q : SysQuery) → q.Answer → Prop}

theorem closeHelper_owns (helper : Option Nat) :
    Owns AcquireCall.kind allowed (held HandleKind.file helper) (closeHelper helper) fun _ m => m = 0 := by
  cases helper with
  | none => exact Owns.pure rfl
  | some fp => exact Owns.release (add_zero _).symm (Owns.pure rfl)

theorem streamDisconnect_owns (b : LiveBridge) :
    Owns AcquireCall.kind allowed b.handles (streamDisconnect b) fun b' m =>
      m = b'.handles ∧ b' = { b with streamFd := none, helper := none } := by
  have horder : b.handles =
      held HandleKind.fd b.streamFd + (held HandleKind.file b.helper + held HandleKind.fd b.mapFd) := by
    rw [LiveBridge.handles]
    abel
  refine Owns.of_eq horder ((closeFd_owns _).discard fun _ => (closeHelper_owns _).discard fun _ => Owns.pure ⟨?_, rfl⟩)
  simp only [LiveBridge.handles, held, add_zero]

theorem connectTcp_yields (host : CStr) : Yields AcquireCall.kind allowed .fd (connectTcp host) := by
  refine Owns.acquire _ (Owns.pure rfl) fun fd => Owns.ask _ fun valid _ => ?_
  split
  · exact Owns.release rfl (Owns.pure rfl)
  · refine Owns.use (by simp [AcquireCall.kind]) (Owns.ask _ fun connected _ => ?_)
    split
    · exact Owns.release rfl (Owns.pure rfl)
    · exact Owns.pure rfl

/-- What a call that may connect leaves: the handles of the bridge, nothing new where the stream is off, and the
    stream as its own model has it. -/
structure Connected (b : LiveBridge) (alert : VmiAlert) (result : Bool × LiveBridge) (m : Ledger HandleKind) : Prop where
  handles : m = result.2.handles
  cfg : result.2.cfg = b.cfg
  off : b.cfg.enabled = false → result = (false, b)
  link : ∃ socketOk popenOk effects, ∀ sent,
    Vmi.streamConnectIfNeeded b.cfg b.stream ⟨alert, socketOk, true, true, popenOk, sent⟩ =
      ⟨result.1, effects, result.2.stream⟩

/-- The stream's own model makes an attempt. -/
structure StreamDue (cfg : StreamConfig) (s : StreamState) (nowNs : U64) : Prop where
  enabled : cfg.enabled = true
  down : s.connected cfg.mode = false
  due : ¬ (s.nextReconnectNs ≠ 0 ∧ nowNs < s.nextReconnectNs)

theorem StreamDue.helper {cfg : StreamConfig} {s : StreamState} {call : StreamCall}
    (h : StreamDue cfg s call.alert.timestampNs) (hmode : cfg.mode = .helper) :
    Vmi.streamConnectIfNeeded cfg s call =
      if call.popenOk then ⟨true, [.attempted true], resetBackoff { s with helperOpen := true }⟩
      else ⟨false, [.attempted false], scheduleStreamReconnect s call.alert.timestampNs⟩ := by
  have hdown := h.down
  rw [hmode] at hdown
  unfold Vmi.streamConnectIfNeeded
  simp only [h.enabled, not_true_eq_false, if_false, hmode, hdown, Bool.false_eq_true, h.due]
  cases call.popenOk <;> rfl

theorem StreamDue.tcp {cfg : StreamConfig} {s : StreamState} {call : StreamCall}
    (h : StreamDue cfg s call.alert.timestampNs) (hmode : cfg.mode = .tcp) (hhost : call.hostOk = true)
    (hconnect : call.connectOk = true) :
    Vmi.streamConnectIfNeeded cfg s call =
      if call.socketOk then ⟨true, [.attempted true], resetBackoff { s with fdOpen := true }⟩
      else ⟨false, [.attempted false], scheduleStreamReconnect s call.alert.timestampNs⟩ := by
  have hdown := h.down
  rw [hmode] at hdown
  unfold Vmi.streamConnectIfNeeded
  simp only [h.enabled, not_true_eq_false, if_false, hmode, hdown, Bool.false_eq_true, h.due, hhost, hconnect]
  cases call.socketOk <;> rfl

theorem streamConnectIfNeeded_owns (b : LiveBridge) (alert : VmiAlert) :
    Owns AcquireCall.kind allowed b.handles (streamConnectIfNeeded b alert.timestampNs) (Connected b alert) := by
  unfold streamConnectIfNeeded
  split
  · next henabled =>
    refine Owns.pure ⟨rfl, rfl, fun _ => rfl, false, false, [], fun sent => ?_⟩
    rw [Vmi.streamConnectIfNeeded, if_pos henabled]
  · next henabled =>
    have hoff : ∀ result : Bool × LiveBridge, b.cfg.enabled = false → result = (false, b) := fun _ hoff => by
      rw [hoff] at henabled
      exact absurd Bool.false_ne_true henabled
    split
    · next hconn =>
      refine Owns.pure ⟨rfl, rfl, hoff _, false, false, [], fun sent => ?_⟩
      rw [Vmi.streamConnectIfNeeded, if_neg henabled, if_pos hconn]
    · next hconn =>
      split
      · next hwait =>
        refine Owns.pure ⟨rfl, rfl, hoff _, false, false, [], fun sent => ?_⟩
        rw [Vmi.streamConnectIfNeeded, if_neg henabled, if_neg hconn]
        exact if_pos hwait
      · next hwait =>
        have hdue : StreamDue b.cfg b.stream alert.timestampNs :=
          ⟨Bool.eq_true_of_not_eq_false fun h => henabled (by rw [h]; exact Bool.false_ne_true),
            Bool.eq_false_iff.mpr hconn, hwait⟩
        have hdown := hdue.down
        cases hmode : b.cfg.mode with
        | helper =>
          rw [hmode] at hdown
          have hnone : b.helper = none := Option.not_isSome_iff_eq_none.mp (Bool.eq_false_iff.mp hdown)
          refine Owns.acquire _ ?_ fun fp => ?_
          · exact Owns.pure ⟨rfl, rfl, hoff _, false, false, [.attempted false], fun sent => hdue.helper hmode⟩
          · refine Owns.pure ⟨?_, rfl, hoff _, false, true, [.attempted true], fun sent => hdue.helper hmode⟩
            simp only [LiveBridge.handles, LiveBridge.reset, hnone, held, add_zero]
            exact add_comm _ _
        | tcp =>
          rw [hmode] at hdown
          have hnone : b.streamFd = none := Option.not_isSome_iff_eq_none.mp (Bool.eq_false_iff.mp hdown)
          refine (connectTcp_yields b.host).then fun fd => ?_
          cases fd with
          | none =>
            refine Owns.pure ⟨zero_add _, rfl, hoff _, false, false, [.attempted false], fun sent => ?_⟩
            exact hdue.tcp hmode rfl rfl
          | some fd =>
            refine Owns.pure ⟨?_, rfl, hoff _, true, false, [.attempted true], fun sent => hdue.tcp hmode rfl rfl⟩
            simp only [LiveBridge.handles, LiveBridge.reset, hnone, held, add_zero]
            abel

theorem streamWrite_owns (b : LiveBridge) :
    Owns AcquireCall.kind allowed b.handles (streamWrite b) fun _ m => m = b.handles := by
  unfold streamWrite
  split
  · split
    · exact Owns.pure rfl
    · next fp hfp =>
      exact Owns.use (by simp [LiveBridge.handles, hfp, held]) (Owns.ask _ fun _ _ => Owns.pure rfl)
  · split
    · exact Owns.pure rfl
    · next fd hfd =>
      exact Owns.use (by simp [LiveBridge.handles, hfd, held]) (Owns.ask _ fun _ _ => Owns.pure rfl)

/-- What is kept of the bridge: it owns its handles, and a stream that is off stays so. -/
structure Kept (b b' : LiveBridge) (m : Ledger HandleKind) : Prop where
  handles : m = b'.handles
  off : b.cfg.enabled = false → b' = b

/-- The state of the stream's own model after an alert, from what the connection gave. -/
theorem state_streamSendAlert {cfg : StreamConfig} {s : StreamState} {call : StreamCall} {r : StreamResult}
    (hr : Vmi.streamConnectIfNeeded cfg s call = r) :
    (Vmi.streamSendAlert cfg s call).state =
      if ¬ r.ok ∨ (streamPayload cfg call.alert).length = 0 ∨
          (streamPayload cfg call.alert).length ≥ streamPayloadSize then r.state
      else if cfg.mode = .helper ∧ ¬ r.state.helperOpen then r.state
      else if call.sent then r.state
      else scheduleStreamReconnect (Vmi.streamDisconnect r.state) call.alert.timestampNs := by
  unfold Vmi.streamSendAlert
  rw [hr]
  by_cases hok : r.ok = true
  · by_cases hlen : (streamPayload cfg call.alert).length = 0 ∨ (streamPayload cfg call.alert).length ≥ streamPayloadSize
    · rw [if_neg (not_not.mpr hok), if_pos hlen, if_pos (Or.inr hlen)]
    · rw [if_neg (not_not.mpr hok), if_neg hlen, if_neg (not_or.mpr ⟨not_not.mpr hok, hlen⟩)]
      split
      · rfl
      · rw [Vmi.streamWrite]
        split <;> rfl
  · rw [if_pos hok, if_pos (Or.inl hok)]

/-- **Sending an alert.** -/
theorem streamSendAlert_owns (b : LiveBridge) (alert : VmiAlert) :
    Owns AcquireCall.kind allowed b.handles (streamSendAlert b alert) fun b' m => Kept b b' m ∧
      ∃ call, call.alert = alert ∧ (Vmi.streamSendAlert b.cfg b.stream call).state = b'.stream := by
  refine (streamConnectIfNeeded_owns b alert).bind fun result m hresult => ?_
  obtain ⟨rfl, hcfg, hoff, socketOk, popenOk, effects, hlink⟩ := hresult
  obtain ⟨ok, c⟩ := result
  have hstate := fun sent => state_streamSendAlert (hlink sent)
  dsimp only at hcfg hoff hstate ⊢
  rw [hcfg]
  split
  · next hstop =>
    refine Owns.pure ⟨⟨rfl, fun h => congrArg Prod.snd (hoff h)⟩, _, rfl, (hstate false).trans ?_⟩
    rw [if_pos hstop]
  · next hgo =>
    have hon : ∀ b', b.cfg.enabled = false → b' = b := by
      intro b' h
      have hfalse : ok = false := congrArg Prod.fst (hoff h)
      rw [hfalse] at hgo
      exact absurd (Or.inl Bool.false_ne_true) hgo
    split
    · next hhelper =>
      refine Owns.pure ⟨⟨rfl, hon _⟩, _, rfl, (hstate false).trans ?_⟩
      rw [if_neg hgo, if_pos]
      exact ⟨hhelper.1, by rw [LiveBridge.stream, Option.isNone_iff_eq_none.mp hhelper.2]; exact Bool.false_ne_true⟩
    · next hhelper =>
      have hopen : ¬ (b.cfg.mode = .helper ∧ ¬ c.stream.helperOpen = true) := by
        rintro ⟨hmode, hclosed⟩
        exact hhelper ⟨hmode, Option.isNone_iff_eq_none.mpr (Option.not_isSome_iff_eq_none.mp hclosed)⟩
      refine (streamWrite_owns c).bind fun sent m hm => ?_
      subst hm
      cases sent with
      | true =>
        refine Owns.pure ⟨⟨rfl, hon _⟩, _, rfl, (hstate true).trans ?_⟩
        rw [if_neg hgo, if_neg hopen, if_pos rfl]
      | false =>
        refine (streamDisconnect_owns c).bind fun c' m hm => ?_
        obtain ⟨rfl, rfl⟩ := hm
        refine Owns.pure ⟨⟨rfl, hon _⟩, _, rfl, (hstate false).trans ?_⟩
        rw [if_neg hgo, if_neg hopen, if_neg Bool.false_ne_true]
        rfl

theorem writeAlertToMap_owns (b : LiveBridge) :
    Owns AcquireCall.kind allowed b.handles (writeAlertToMap b) fun _ m => m = b.handles := by
  unfold writeAlertToMap
  split
  · exact Owns.pure rfl
  · next fd hfd =>
    exact Owns.use (by simp [LiveBridge.handles, hfd, held]) (Owns.ask _ fun _ _ => Owns.pure rfl)

theorem emitAlert_owns (b : LiveBridge) (alert : VmiAlert) :
    Owns AcquireCall.kind allowed b.handles (emitAlert b alert) (Kept b) := by
  refine (writeAlertToMap_owns b).bind fun _ m hm => ?_
  subst hm
  exact (streamSendAlert_owns b alert).mono fun _ _ h => h.1

/-! The work keeps the handles of the session and of the bridge. -/

theorem readLoop_owns (fd n : Nat) :
    Owns AcquireCall.kind allowed (just HandleKind.fd fd) (readLoop fd n) fun _ m => m = just HandleKind.fd fd := by
  induction n with
  | zero => exact Owns.pure rfl
  | succ n ih => exact Owns.use (Multiset.mem_singleton_self _) ih

theorem readViaDevmem_neutral : Neutral AcquireCall.kind allowed readViaDevmem := by
  refine Owns.acquire _ (Owns.pure rfl) fun fd => Owns.ask _ fun n _ => (readLoop_owns fd n).call rfl fun _ m hm => ?_
  subst hm
  exact Owns.release rfl (Owns.pure rfl)

theorem useMemslots_owns (s : LiveSession) :
    Owns AcquireCall.kind allowed s.handles (useMemslots s) fun _ m => m = s.handles := by
  unfold useMemslots
  split
  · exact Owns.pure rfl
  · next m hm => exact Owns.use (by simp [LiveSession.handles, hm, held]) (Owns.pure rfl)

theorem vmiReadPhysical_owns (s : LiveSession) :
    Owns AcquireCall.kind allowed s.handles (vmiReadPhysical s) fun _ m => m = s.handles := by
  refine Owns.use (by simp [LiveSession.handles]) ((useMemslots_owns s).bind fun _ m hm => ?_)
  subst hm
  refine Owns.ask _ fun transferred _ => ?_
  split
  · exact Owns.pure rfl
  · exact readViaDevmem_neutral.last fun _ => rfl

theorem setPageReadonly_owns (s : LiveSession) :
    Owns AcquireCall.kind allowed s.handles (setPageReadonly s) fun _ m => m = s.handles := by
  refine Owns.use (by simp [LiveSession.handles]) ((useMemslots_owns s).bind fun _ m hm => ?_)
  subst hm
  split
  · exact Owns.pure rfl
  · next fd hfd => exact Owns.use (by simp [LiveSession.handles, hfd, held]) (Owns.pure rfl)

/-- Both keep their handles, and a stream that is off stays so. -/
structure Worked (s : LiveSession) (b b' : LiveBridge) (m : Ledger HandleKind) : Prop where
  handles : m = s.handles + b'.handles
  off : b.cfg.enabled = false → b' = b

theorem Worked.trans {s : LiveSession} {b b' b'' : LiveBridge} {m m' : Ledger HandleKind} (h : Worked s b b' m)
    (h' : Worked s b' b'' m') : Worked s b b'' m' where
  handles := h'.handles
  off hoff := by
    have hb := h.off hoff
    subst hb
    exact h'.off hoff

theorem act_owns (s : LiveSession) (b : LiveBridge) (a : Activity) :
    Owns AcquireCall.kind allowed (s.handles + b.handles) (act s b a) (Worked s b) := by
  cases a with
  | readPhysical =>
    refine (vmiReadPhysical_owns s).call rfl fun _ m hm => Owns.pure ⟨?_, fun _ => rfl⟩
    rw [hm]
  | setPageReadonly =>
    refine (setPageReadonly_owns s).call rfl fun _ m hm => Owns.pure ⟨?_, fun _ => rfl⟩
    rw [hm]
  | alert alert =>
    refine Owns.tailCall (emitAlert_owns b alert) (add_comm _ _) fun b' m hm => ⟨?_, hm.off⟩
    rw [hm.handles, add_comm]

theorem actAll_owns (s : LiveSession) (b : LiveBridge) (as : List Activity) :
    Owns AcquireCall.kind allowed (s.handles + b.handles) (actAll s b as) (Worked s b) := by
  induction as generalizing b with
  | nil => exact Owns.pure ⟨rfl, fun _ => rfl⟩
  | cons a rest ih =>
    refine (act_owns s b a).bind fun b' m hm => ?_
    rw [hm.handles]
    exact (ih b').mono fun _ _ h => hm.trans h

theorem btfDump_neutral : Neutral AcquireCall.kind allowed btfDump := by
  refine Owns.ask _ fun readable _ => ?_
  split
  · exact Owns.pure rfl
  · exact Owns.acquire _ (Owns.pure rfl) fun fp =>
      Owns.use (by simp [AcquireCall.kind]) (Owns.release rfl (Owns.pure rfl))

theorem perform_owns (s : LiveSession) (b : LiveBridge) (w : Work) :
    Owns AcquireCall.kind allowed (s.handles + b.handles) (perform s b w) (Worked s b) := by
  cases w with
  | activity a => exact act_owns s b a
  | snapshot inner =>
    refine Owns.acquire _ (Owns.pure ⟨rfl, fun _ => rfl⟩) fun procs => ?_
    refine (actAll_owns s b inner).call (add_comm _ _) fun b' m hm => ?_
    refine Owns.use (by simp [AcquireCall.kind]) (Owns.release (add_comm _ _) (Owns.pure hm))
  | btfDump => exact btfDump_neutral.then fun _ => Owns.pure ⟨rfl, fun _ => rfl⟩

theorem performAll_owns (s : LiveSession) (b : LiveBridge) (ws : List Work) :
    Owns AcquireCall.kind allowed (s.handles + b.handles) (performAll s b ws) (Worked s b) := by
  induction ws generalizing b with
  | nil => exact Owns.pure ⟨rfl, fun _ => rfl⟩
  | cons w rest ih =>
    refine (perform_owns s b w).bind fun b' m hm => ?_
    rw [hm.handles]
    exact (ih b').mono fun _ _ h => hm.trans h

theorem workOn_owns (s : LiveSession) (b : LiveBridge) :
    Owns AcquireCall.kind allowed (s.handles + b.handles) (workOn s b) (Worked s b) :=
  Owns.ask _ fun ws _ => performAll_owns s b ws

/-! The server and the loop. -/

/-- A server whose `bind` and `listen` succeed owns its socket. -/
theorem hekiServerInit_yields {path : CStr} (hbind : ∀ ok : Bool, allowed (.bind path) ok → ok = true)
    (hlisten : ∀ ok : Bool, allowed .listen ok → ok = true) :
    Yields AcquireCall.kind allowed .fd (hekiServerInit path) := by
  refine Owns.acquire _ (Owns.pure rfl) fun fd => Owns.use (by simp [AcquireCall.kind]) ?_
  refine Owns.ask _ fun bound hbound => ?_
  rw [if_neg (not_not.mpr (hbind bound hbound))]
  refine Owns.ask _ fun listening hlistening => ?_
  rw [if_neg (not_not.mpr (hlisten listening hlistening))]
  exact Owns.pure rfl

theorem handleHekiClient_owns (s : LiveSession) (b : LiveBridge) (client : Nat) :
    Owns AcquireCall.kind allowed (just HandleKind.fd client + (s.handles + b.handles)) (handleHekiClient s b client)
      fun b' m => m = s.handles + b'.handles := by
  refine Owns.use (by simp) ((workOn_owns s b).call (add_comm _ _) fun b' m hm => ?_)
  exact Owns.use (by simp) (Owns.release (add_comm _ _) (Owns.pure hm.handles))

theorem hekiServerPoll_owns (s : LiveSession) (b : LiveBridge) (listenFd : Option Nat) :
    Owns AcquireCall.kind allowed (s.handles + b.handles + held HandleKind.fd listenFd) (hekiServerPoll s b listenFd)
      fun b' m => m = s.handles + b'.handles + held HandleKind.fd listenFd := by
  cases listenFd with
  | none => exact Owns.pure rfl
  | some fd =>
    refine Owns.use (by simp [held]) (Owns.acquire _ (Owns.pure rfl) fun client => ?_)
    refine Owns.tailCall (handleHekiClient_owns s b client) (add_assoc _ _ _).symm fun b' m hm => ?_
    rw [hm]

theorem mainRound_owns (listenFd : Option Nat) (s : LiveSession) (b : LiveBridge) :
    Owns AcquireCall.kind allowed (s.handles + b.handles + held HandleKind.fd listenFd) (mainRound listenFd s b)
      fun x m => m = x.1.handles + x.2.handles + held HandleKind.fd listenFd := by
  refine (heartbeat_owns s).call (add_assoc _ _ _) fun result m hm => ?_
  rw [hm.handles, ← add_assoc]
  refine (workOn_owns result.2 b).call rfl fun b₁ m hm => ?_
  rw [hm.handles]
  refine (hekiServerPoll_owns result.2 b₁ listenFd).bind fun b₂ m hm => ?_
  subst hm
  refine (workOn_owns result.2 b₂).call rfl fun b₃ m hm => Owns.pure ?_
  rw [hm.handles]

theorem mainLoop_owns (listenFd : Option Nat) (n : Nat) (s : LiveSession) (b : LiveBridge) :
    Owns AcquireCall.kind allowed (s.handles + b.handles + held HandleKind.fd listenFd) (mainLoop listenFd n s b)
      fun x m => m = x.1.handles + x.2.handles + held HandleKind.fd listenFd := by
  induction n generalizing s b with
  | zero => exact Owns.pure rfl
  | succ n ih =>
    refine (mainRound_owns listenFd s b).bind fun x m hm => ?_
    subst hm
    exact ih x.1 x.2

theorem bridgeTeardown_owns (s : LiveSession) (b : LiveBridge) :
    Owns AcquireCall.kind allowed (s.handles + b.handles) (bridgeTeardown s b) fun _ m => m = s.handles := by
  refine (workOn_owns s b).bind fun b' m hm => ?_
  have hmap : s.handles + b'.handles = held HandleKind.fd b'.mapFd + ({ b' with mapFd := none }.handles + s.handles) := by
    simp only [LiveBridge.handles, held]
    abel
  rw [hm.handles, hmap]
  refine (closeFd_owns b'.mapFd).discard fun _ => (streamDisconnect_owns _).call rfl fun b'' m hm => Owns.pure ?_
  obtain ⟨rfl, rfl⟩ := hm
  exact zero_add _

theorem bridgeInit_owns (getenv : CStr → Option CStr) :
    Owns AcquireCall.kind allowed 0 (bridgeInit getenv) fun b m => m = b.handles := by
  refine (yields_acquire _).then fun mapFd => Owns.pure ?_
  simp only [LiveBridge.handles, held, AcquireCall.kind, add_zero]

/-- What is open at the exit: nothing, or the socket of the server. -/
def ExitLedger (getenv : CStr → Option CStr) (m : Ledger HandleKind) : Prop :=
  m = 0 ∨ getenv hekiVmiSocket ≠ none ∧ ∃ n, m = just HandleKind.fd n

/-- The server cannot fail after it has its socket, or is not asked for. -/
def HekiSound (allowed : (q : SysQuery) → q.Answer → Prop) (getenv : CStr → Option CStr) : Prop :=
  ∀ path, getenv hekiVmiSocket = some path →
    (∀ ok : Bool, allowed (.bind path) ok → ok = true) ∧ ∀ ok : Bool, allowed .listen ok → ok = true

theorem serve_owns {getenv : CStr → Option CStr} (hheki : HekiSound allowed getenv) (s : LiveSession) :
    Owns AcquireCall.kind allowed s.handles (serve getenv s) fun _ m => ExitLedger getenv m := by
  have hstart : Owns AcquireCall.kind allowed 0 (startHeki getenv) fun r m =>
      m = held HandleKind.fd r ∧ (r ≠ none → getenv hekiVmiSocket ≠ none) := by
    unfold startHeki
    split
    · exact Owns.pure ⟨rfl, fun h => absurd rfl h⟩
    · next path hpath =>
      obtain ⟨hbind, hlisten⟩ := hheki path hpath
      refine (hekiServerInit_yields hbind hlisten).mono fun r m hm => ⟨hm, fun _ => ?_⟩
      rw [hpath]
      exact Option.some_ne_none path
  refine (bridgeInit_owns getenv).call (zero_add _).symm fun b m hm => ?_
  subst hm
  refine hstart.call (zero_add _).symm fun listenFd m hm => Owns.ask _ fun n _ => ?_
  obtain ⟨rfl, hsocket⟩ := hm
  refine Owns.of_eq ?_ ((mainLoop_owns listenFd n s b).bind fun x m hm => ?_)
  · abel
  · subst hm
    refine (bridgeTeardown_owns x.1 x.2).call rfl fun _ m hm => ?_
    subst hm
    refine Owns.use (by simp [LiveSession.handles]) ((kvmiTeardown_owns x.1).discard fun _ => Owns.pure ?_)
    cases listenFd with
    | none => exact Or.inl rfl
    | some fd => exact Or.inr ⟨hsocket (Option.some_ne_none fd), fd, rfl⟩

theorem main_owns {getenv : CStr → Option CStr} (hheki : HekiSound allowed getenv) (vmName : Option CStr) :
    Owns AcquireCall.kind allowed 0 (main vmName getenv) fun _ m => ExitLedger getenv m := by
  cases vmName with
  | none => exact Owns.pure (Or.inl rfl)
  | some vmName =>
    refine (kvmiSetup_owns getenv vmName).bind fun s m hm => ?_
    subst hm
    cases s with
    | none => exact Owns.pure (Or.inl rfl)
    | some s =>
      -- nothing is open in the bridge, so no work opens anything
      refine Owns.of_eq (add_zero _).symm ((workOn_owns s .initial).bind fun b m hm => ?_)
      rw [hm.handles, hm.off rfl]
      refine Owns.of_eq (add_zero _) (Owns.ask _ fun armed _ => ?_)
      split
      · exact (kvmiTeardown_owns s).bind fun _ m hm => Owns.pure (Or.inl hm)
      · exact serve_owns hheki s

end specs

/-! The run that faults. -/

/-- Every answer is possible, but for the failures of `bind` and `listen` that are ruled out. -/
def answers (bindFails listenFails : Bool) : (q : SysQuery) → q.Answer → Prop
  | .bind _, ok => ok = true ∨ bindFails = true
  | .listen, ok => ok = true ∨ listenFails = true
  | _, _ => True

section faults

variable {bindFails listenFails : Bool}

/-- The session when there is neither KVM nor a VM. -/
def bareSession (self : Nat) : LiveSession := ⟨self, none, none, [], 0, none, none, none, none, 0⟩

theorem run_kvmiSetup {self : Nat} {l : Ledger HandleKind} (hself : (HandleKind.heap, self) ∉ l)
    (getenv : CStr → Option CStr) (vmName : CStr) :
    SysRun AcquireCall.kind (answers bindFails listenFails) (kvmiSetup getenv vmName) l
      (.ended (some (bareSession self)) ((.heap, self) ::ₘ l)) :=
  .acquired hself (.refused (.refused (.done _ _)))

theorem run_workOn (s : LiveSession) (b : LiveBridge) (l : Ledger HandleKind) :
    SysRun AcquireCall.kind (answers bindFails listenFails) (workOn s b) l (.ended b l) := by
  have h : answers bindFails listenFails .work [] := trivial
  exact .asked h (.done _ _)

/-- The socket is closed and its number kept. -/
theorem run_hekiServerInit {fd : Nat} {l : Ledger HandleKind} (hfd : (HandleKind.fd, fd) ∉ l) (path : CStr)
    (hfails : bindFails = true ∨ listenFails = true) :
    SysRun AcquireCall.kind (answers bindFails listenFails) (hekiServerInit path) l (.ended (some fd) l) := by
  have hmem : (HandleKind.fd, fd) ∈ (HandleKind.fd, fd) ::ₘ l := Multiset.mem_cons_self ..
  have hclose : SysRun AcquireCall.kind (answers bindFails listenFails) (do release (.fd, fd); return some fd : VmiProg _)
      ((.fd, fd) ::ₘ l) (.ended (some fd) l) := by
    have hdone : SysRun AcquireCall.kind (answers bindFails listenFails) (return some fd : VmiProg _)
        (((.fd, fd) ::ₘ l).erase (.fd, fd)) (.ended (some fd) l) := by
      rw [Multiset.erase_cons_head]
      exact .done _ _
    exact .released hmem hdone
  by_cases hbind : bindFails = true
  · have hanswer : answers bindFails listenFails (.bind path) false := Or.inr hbind
    exact .acquired hfd (.used hmem (.asked hanswer hclose))
  · have hlisten : listenFails = true := hfails.resolve_left hbind
    have hbound : answers bindFails listenFails (.bind path) true := Or.inl rfl
    have hanswer : answers bindFails listenFails .listen false := Or.inr hlisten
    exact .acquired hfd (.used hmem (.asked hbound (.asked hanswer hclose)))

theorem run_hekiServerPoll {fd : Nat} {l : Ledger HandleKind} (hfd : (HandleKind.fd, fd) ∉ l) (s : LiveSession)
    (b : LiveBridge) :
    SysRun AcquireCall.kind (answers bindFails listenFails) (hekiServerPoll s b (some fd)) l .fault :=
  .notUsed hfd

theorem run_serve {getenv : CStr → Option CStr} {path : CStr} (hpath : getenv hekiVmiSocket = some path)
    (hfails : bindFails = true ∨ listenFails = true) {self : Nat} {l : Ledger HandleKind}
    (hself : (HandleKind.heap, self) ∈ l) :
    SysRun AcquireCall.kind (answers bindFails listenFails) (serve getenv (bareSession self)) l .fault := by
  obtain ⟨fd, hfd⟩ := exists_fresh HandleKind.fd l
  have hbridge : ∃ b, SysRun AcquireCall.kind (answers bindFails listenFails) (bridgeInit getenv) l (.ended b l) :=
    ⟨_, .refused (.done _ _)⟩
  obtain ⟨b, hbridge⟩ := hbridge
  have hstart : SysRun AcquireCall.kind (answers bindFails listenFails) (startHeki getenv) l (.ended (some fd) l) := by
    rw [startHeki, hpath]
    exact run_hekiServerInit hfd path hfails
  have hbeat : SysRun AcquireCall.kind (answers bindFails listenFails) (kvmiSessionHeartbeat (bareSession self)) l
      (.ended (0, bareSession self) l) := .used hself (.done _ _)
  have hround : SysRun AcquireCall.kind (answers bindFails listenFails) (mainRound (some fd) (bareSession self) b) l
      .fault := hbeat.bind ((run_workOn _ b l).bind (run_hekiServerPoll hfd _ b).bind_fault)
  have hloop : SysRun AcquireCall.kind (answers bindFails listenFails) (mainLoop (some fd) 1 (bareSession self) b) l
      .fault := hround.bind_fault
  have hone : answers bindFails listenFails .rounds (1 : Nat) := trivial
  exact hbridge.bind (hstart.bind (.asked hone hloop.bind_fault))

/-- A server that can fail makes the daemon use a closed descriptor. -/
theorem run_main {getenv : CStr → Option CStr} {path : CStr} (hpath : getenv hekiVmiSocket = some path)
    (hfails : bindFails = true ∨ listenFails = true) (vmName : CStr) (l : Ledger HandleKind) :
    SysRun AcquireCall.kind (answers bindFails listenFails) (main (some vmName) getenv) l .fault := by
  obtain ⟨self, hself⟩ := exists_fresh HandleKind.heap l
  have harmed : answers bindFails listenFails .armed true := trivial
  refine (run_kvmiSetup hself getenv vmName).bind ((run_workOn _ _ _).bind (.asked harmed ?_))
  exact run_serve hpath hfails (Multiset.mem_cons_self ..)

end faults

/-- Every handle that was used or closed was open, and what is open at the end was open at the start, but for the
    socket of the server. -/
def ExitsClean (getenv : CStr → Option CStr) (others : Ledger HandleKind) (r : Outcome HandleKind Int) : Prop :=
  ∃ code m, r = .ended code (m + others) ∧ ExitLedger getenv m

/-- **The handles of the daemon.** Over every run of `main`, whatever else is open when it starts: it exits clean,
    if and only if it has no argument, or no HEKI server, or one whose `bind` and `listen` cannot fail. -/
theorem daemon_handles (vmName : Option CStr) (getenv : CStr → Option CStr) (bindFails listenFails : Bool)
    (others : Finset (HandleKind × Nat)) :
    (∀ r, SysRun AcquireCall.kind (answers bindFails listenFails) (main vmName getenv) others.val r →
      ExitsClean getenv others.val r) ↔
    vmName = none ∨ getenv hekiVmiSocket = none ∨ bindFails = false ∧ listenFails = false := by
  constructor
  · intro hclean
    cases hvm : vmName with
    | none => exact Or.inl rfl
    | some name =>
      refine Or.inr ?_
      cases hpath : getenv hekiVmiSocket with
      | none => exact Or.inl rfl
      | some path =>
        refine Or.inr ?_
        by_contra hfails
        have hsome : bindFails = true ∨ listenFails = true := by
          cases bindFails <;> cases listenFails <;> simp at hfails ⊢
        obtain ⟨_, _, hfault, -⟩ := hclean _ (hvm ▸ run_main hpath hsome name others.val)
        cases hfault
  · intro hcase r hrun
    have hnodup : (0 + others.val).Nodup := by
      rw [zero_add]
      exact others.nodup
    have hrun' : SysRun AcquireCall.kind (answers bindFails listenFails) (main vmName getenv) (0 + others.val) r := by
      rw [zero_add]
      exact hrun
    obtain hnone | hsound : vmName = none ∨ HekiSound (answers bindFails listenFails) getenv := by
      refine hcase.imp_right fun hheki path hpath => ?_
      rw [hpath] at hheki
      obtain ⟨hbind, hlisten⟩ := hheki.resolve_left (Option.some_ne_none path)
      refine ⟨fun ok hok => ?_, fun ok hok => ?_⟩
      · exact hok.resolve_right (by rw [hbind]; exact Bool.false_ne_true)
      · exact hok.resolve_right (by rw [hlisten]; exact Bool.false_ne_true)
    · subst hnone
      cases hrun
      exact ⟨1, 0, by rw [zero_add], Or.inl rfl⟩
    · exact (main_owns hsound vmName).run hnodup hrun'

end SentinelStack.Vmi.Daemon
