import SentinelStack.Lib.Handles
import SentinelStack.Lib.Printf
import SentinelStack.Vmi.Bridge
import SentinelStack.Vmi.KvmiLink
import SentinelStack.Vmi.Memslots
import SentinelStack.Vmi.QemuCmdline
import Mathlib.Tactic.Abel

/- Everything that an introspection session opens (`kvmi_setup.c`), and that it is
   closed again.

   Each function is the sequence of its calls: what it opens or allocates, what it
   uses, what it asks the system and decides by the answer, and what it closes or
   frees. The answers are the system's; the control flow is that of the source, error
   paths and early returns included.

   A live session owns exactly the handles in its fields, after `kvmi_setup` and
   after every heartbeat, reconnects included (`kvmiSetup_owns`, `heartbeat_owns`),
   and `kvmi_teardown` closes each of them once (`kvmiTeardown_owns`). What a
   heartbeat does to the link is what the link's own model says. -/
namespace SentinelStack.Vmi
open SentinelStack.Lib

/-! The system. -/

inductive HandleKind
  | fd
  | dir
  /-- `FILE *`, of `fopen` or `popen`. -/
  | file
  | heap
  /-- `dlopen`. -/
  | lib
  /-- The context of `kvmi_init_unix_socket`. -/
  | listener
  deriving DecidableEq, Repr

inductive AcquireCall
  | openFile (path : CStr)
  | opendir (path : CStr)
  | fopen (path : CStr)
  | popen (command : CStr)
  | socket
  | accept (listenFd : Nat)
  | bpfObjGet (path : CStr)
  | calloc
  | dlopen (name : CStr)
  | kvmiInitUnixSocket (path : CStr)

def AcquireCall.kind : AcquireCall → HandleKind
  | openFile _ | socket | accept _ | bpfObjGet _ => .fd
  | opendir _ => .dir
  | fopen _ | popen _ => .file
  | calloc => .heap
  | dlopen _ => .lib
  | kvmiInitUnixSocket _ => .listener

/-- What the detectors, the guard and the clients of the daemon come to do with handles: read guest memory, make a
    page read-only, emit an alert. -/
inductive Activity
  | readPhysical
  | setPageReadonly
  | alert (alert : VmiAlert)

/-- The same, by itself, around a list of processes that is allocated for it, or to read the output of `bpftool`. -/
inductive Work
  | activity (a : Activity)
  | snapshot (inner : List Activity)
  | btfDump

/-- The questions to the system. -/
inductive SysQuery
  /-- The entries of a directory, in the order in which `readdir` gives them. -/
  | readdir (path : CStr)
  | readlink (path : CStr)
  /-- One `read`, of what the descriptor has. -/
  | read (fd : Nat)
  /-- The text that `fgets` reads to its end. -/
  | fileText (path : CStr)
  | kvmGetApiVersion (fd : Nat)
  | kvmGetSregs (fd : Nat)
  | connect (path : CStr)
  | write (fd : Nat)
  | access (path : CStr)
  | dlsym (name : CStr)
  /-- The callbacks while `kvmi_runtime_connect` waits: before each look, and before the last one. -/
  | callbacks
  | kvmiGetVcpuCount
  | kvmiDomainIsConnected (dom : Dom)
  | bind (path : CStr)
  | listen
  | inetPton
  /-- `npt_guard_arm` returns 0. -/
  | armed
  /-- Whether a transfer through the memslots succeeds. -/
  | transferred
  /-- How many calls of `read` a loop makes. -/
  | readCalls
  /-- What is done next. -/
  | work
  /-- How often the main loop goes round before a signal ends it. -/
  | rounds

def SysQuery.Answer : SysQuery → Type
  | readdir _ => List CStr
  | readlink _ | read _ => Option (List U8)
  | fileText _ => List U8
  | kvmGetApiVersion _ => Int
  | kvmGetSregs _ => Option U64
  | callbacks => (Nat → List LinkCallback) × List LinkCallback
  | kvmiGetVcpuCount => Option U32
  | work => List Work
  | readCalls | rounds => Nat
  | _ => Bool

abbrev VmiProg := SysProg HandleKind AcquireCall SysQuery SysQuery.Answer

namespace Sys

abbrev readdir (path : CStr) : VmiProg (List CStr) := ask (SysQuery.readdir path)
abbrev readlink (path : CStr) : VmiProg (Option (List U8)) := ask (SysQuery.readlink path)
abbrev read (fd : Nat) : VmiProg (Option (List U8)) := ask (SysQuery.read fd)
abbrev fileText (path : CStr) : VmiProg (List U8) := ask (SysQuery.fileText path)
abbrev kvmGetApiVersion (fd : Nat) : VmiProg Int := ask (SysQuery.kvmGetApiVersion fd)
abbrev kvmGetSregs (fd : Nat) : VmiProg (Option U64) := ask (SysQuery.kvmGetSregs fd)
abbrev connect (path : CStr) : VmiProg Bool := ask (SysQuery.connect path)
abbrev write (fd : Nat) : VmiProg Bool := ask (SysQuery.write fd)
abbrev access (path : CStr) : VmiProg Bool := ask (SysQuery.access path)
abbrev dlsym (name : CStr) : VmiProg Bool := ask (SysQuery.dlsym name)
abbrev callbacks : VmiProg ((Nat → List LinkCallback) × List LinkCallback) := ask SysQuery.callbacks
abbrev kvmiGetVcpuCount : VmiProg (Option U32) := ask SysQuery.kvmiGetVcpuCount
abbrev kvmiDomainIsConnected (dom : Dom) : VmiProg Bool := ask (SysQuery.kvmiDomainIsConnected dom)
abbrev bind (path : CStr) : VmiProg Bool := ask (SysQuery.bind path)
abbrev listen : VmiProg Bool := ask SysQuery.listen
abbrev inetPton : VmiProg Bool := ask SysQuery.inetPton
abbrev armed : VmiProg Bool := ask SysQuery.armed
abbrev transferred : VmiProg Bool := ask SysQuery.transferred
abbrev readCalls : VmiProg Nat := ask SysQuery.readCalls
abbrev work : VmiProg (List Work) := ask SysQuery.work
abbrev rounds : VmiProg Nat := ask SysQuery.rounds

end Sys

/-! Looking at the QEMU process. -/

def isNumericName (s : CStr) : Bool := s ≠ [] ∧ s.all isDecDigit

/-- All callers have a buffer of 4096 bytes. -/
def readPidCmdline (pid : Int) : VmiProg (Option CStr) := do
  if pid ≤ 0 then return none
  match ← acquire (.openFile (ascii "/proc/" ++ fmtInt pid ++ ascii "/cmdline")) with
  | none => return none
  | some fd =>
    use (.fd, fd)
    let bytes ← Sys.read fd
    release (.fd, fd)
    match bytes with
    | none => return none
    | some bytes => return if bytes = [] then none else some (cmdlineText 4096 bytes)

def findVmPidLoop (vmName : CStr) (proc : Nat) : List CStr → VmiProg (Option Int)
  | [] => do
    release (.dir, proc)
    return none
  | name :: rest => do
    use (.dir, proc)
    if ¬ isNumericName name then findVmPidLoop vmName proc rest
    else
      match ← readPidCmdline (atoi name) with
      | none => findVmPidLoop vmName proc rest
      | some cmdline =>
        if Strstr cmdline (ascii "qemu") ∧ Strstr cmdline vmName then
          release (.dir, proc)
          return some (atoi name)
        else findVmPidLoop vmName proc rest

def findVmPid (vmName : CStr) : VmiProg (Option Int) := do
  match ← acquire (.opendir (ascii "/proc")) with
  | none => return none
  | some proc =>
    let entries ← Sys.readdir (ascii "/proc")
    findVmPidLoop vmName proc entries

def kvmApiVersion : Int := 12

def openKvmDevice : VmiProg (Option Nat) := do
  match ← acquire (.openFile (ascii "/dev/kvm")) with
  | none => return none
  | some fd =>
    use (.fd, fd)
    let apiVer ← Sys.kvmGetApiVersion fd
    if apiVer ≠ kvmApiVersion then
      release (.fd, fd)
      return none
    else return some fd

def fdDir (pid : Int) : CStr := ascii "/proc/" ++ fmtInt pid ++ ascii "/fd"

/-- First to read and write, then to read. -/
def openPidFd (pid : Int) (fdName : CStr) : VmiProg (Option Nat) := do
  let path := fdDir pid ++ ascii "/" ++ fdName
  if path.length ≥ 64 then return none
  match ← acquire (.openFile path) with
  | some fd => return some fd
  | none => acquire (.openFile path)

/-- A descriptor of the process whose link has the text in it, opened anew. -/
def openIfLinked (pid : Int) (dir : Nat) (needle fdName : CStr) : VmiProg (Option Nat) := do
  use (.dir, dir)
  let linkPath := fdDir pid ++ ascii "/" ++ fdName
  if ¬ isNumericName fdName ∨ linkPath.length ≥ 128 then return none
  match ← Sys.readlink linkPath with
  | none => return none
  | some target =>
    if Strstr (cstrOf (target.take 511)) needle then openPidFd pid fdName else return none

def duplicateFdLoop (pid : Int) (needle : CStr) (dir : Nat) : List CStr → VmiProg (Option Nat)
  | [] => do
    release (.dir, dir)
    return none
  | name :: rest => do
    match ← openIfLinked pid dir needle name with
    | none => duplicateFdLoop pid needle dir rest
    | some fd =>
      release (.dir, dir)
      return some fd

def duplicateFdByLinkTarget (pid : Int) (needle : CStr) : VmiProg (Option Nat) := do
  match ← acquire (.opendir (fdDir pid)) with
  | none => return none
  | some dir =>
    let entries ← Sys.readdir (fdDir pid)
    duplicateFdLoop pid needle dir entries

/-- The loop over the entries, with the descriptors found so far. -/
def discoverVcpuLoop (pid : Int) (dir : Nat) : List CStr → List Nat → VmiProg (List Nat)
  | [], fds => do
    release (.dir, dir)
    return fds
  | name :: rest, fds => do
    if fds.length ≥ vmiMaxVcpus.toNat then
      release (.dir, dir)
      return fds
    else
      match ← openIfLinked pid dir (ascii "anon_inode:kvm-vcpu") name with
      | none => discoverVcpuLoop pid dir rest fds
      | some fd => discoverVcpuLoop pid dir rest (fds ++ [fd])

def discoverVcpuFds (pid : Int) : VmiProg (List Nat) := do
  match ← acquire (.opendir (fdDir pid)) with
  | none => return []
  | some dir =>
    let entries ← Sys.readdir (fdDir pid)
    discoverVcpuLoop pid dir entries []

/-! The control channels. -/

/-- One `read` into a buffer of 4096 bytes. -/
def socketReadText (fd : Nat) : VmiProg (Option CStr) := do
  use (.fd, fd)
  match ← Sys.read fd with
  | none => return none
  | some bytes => return if bytes = [] then none else some (cstrOf (bytes.take 4095))

/-- `qmp_capabilities`: the greeting, the command and its reply. -/
def qmpHandshake (fd : Nat) : VmiProg Bool := do
  if (← socketReadText fd).isNone then return false
  use (.fd, fd)
  let written ← Sys.write fd
  if ¬ written then return false
  match ← socketReadText fd with
  | none => return false
  | some reply => return Strstr reply (ascii "\"return\"")

def connectQmpChannel (pid : Int) : VmiProg (Option Nat) := do
  match ← readPidCmdline pid with
  | none => return none
  | some cmdline =>
    match extractQmpPathFromCmdline cmdline sunPathSize with
    | none => return none
    | some qmpPath =>
      match ← acquire .socket with
      | none => return none
      | some fd =>
        use (.fd, fd)
        let connected ← Sys.connect qmpPath
        if ¬ connected then
          release (.fd, fd)
          return none
        else if ¬ (← qmpHandshake fd) then
          release (.fd, fd)
          return none
        else return some fd

/-- The sockets of a guest that are tried by name. -/
def kvmiSocketPatterns (vmName : CStr) : List CStr :=
  [ascii "/run/kvmi/" ++ vmName ++ ascii ".sock", ascii "/var/run/kvmi/" ++ vmName ++ ascii ".sock",
    ascii "/tmp/kvmi-" ++ vmName ++ ascii ".sock", ascii "/tmp/" ++ vmName ++ ascii ".kvmi.sock"]

def firstAccessible : List CStr → VmiProg (Option CStr)
  | [] => return none
  | path :: rest => do
    if path.length ≥ sunPathSize then firstAccessible rest
    else
      let found ← Sys.access path
      if found then return some path else firstAccessible rest

def discoverKvmiSocketPath (getenv : CStr → Option CStr) (vmName : CStr) (pid : Int) : VmiProg (Option CStr) := do
  match (getenv (ascii "KVMI_SOCKET")).filter (· ≠ []) with
  | some socket => return some (strncpyz sunPathSize socket)
  | none =>
    let cmdline ← readPidCmdline pid
    match cmdline.bind (extractKvmiPathFromCmdline · sunPathSize) with
    | some path => return some path
    | none => firstAccessible (kvmiSocketPatterns vmName)

/-- `struct kvmi_runtime`, with what it points to; `link` is the state of the link. -/
structure LiveRuntime where
  self : Nat
  lib : Nat
  listener : Option Nat
  link : KvmiRuntime

def LiveRuntime.handles (r : LiveRuntime) : Ledger HandleKind :=
  just HandleKind.heap r.self + just HandleKind.lib r.lib + held HandleKind.listener r.listener

/-- The functions of libkvmi that must be there. -/
def requiredSymbols : List CStr :=
  [ascii "kvmi_init_unix_socket", ascii "kvmi_uninit", ascii "kvmi_domain_is_connected", ascii "kvmi_get_version",
    ascii "kvmi_memory_mapping", ascii "kvmi_get_vcpu_count"]

def loadRequiredSymbols (lib : Nat) : List CStr → VmiProg Bool
  | [] => return true
  | name :: rest => do
    use (.lib, lib)
    let found ← Sys.dlsym name
    if found then loadRequiredSymbols lib rest else return false

def openLibkvmi : VmiProg (Option Nat) := do
  match ← acquire (.dlopen (ascii "libkvmi.so.0")) with
  | some lib => return some lib
  | none => acquire (.dlopen (ascii "libkvmi.so"))

def kvmiRuntimeCreate : VmiProg (Option LiveRuntime) := do
  match ← acquire .calloc with
  | none => return none
  | some self =>
    match ← openLibkvmi with
    | none =>
      release (.heap, self)
      return none
    | some lib =>
      if ← loadRequiredSymbols lib requiredSymbols then return some ⟨self, lib, none, KvmiRuntime.create⟩
      else
        release (.lib, lib)
        release (.heap, self)
        return none

/-- `fn_uninit`, if there is a listener. -/
def uninitListener (r : LiveRuntime) : VmiProg Unit := do
  match r.listener with
  | none => return ()
  | some ctx =>
    use (.lib, r.lib)
    release (.listener, ctx)

def kvmiRuntimeDestroy (r : LiveRuntime) : VmiProg Unit := do
  uninitListener r
  release (.lib, r.lib)
  release (.heap, r.self)

def kvmiRuntimeConnect (r : LiveRuntime) (socketPath vmName : CStr) : VmiProg (Bool × LiveRuntime) := do
  use (.heap, r.self)
  uninitListener r
  use (.lib, r.lib)
  match ← acquire (.kvmiInitUnixSocket socketPath) with
  | none =>
    let attempt := r.link.connect socketPath vmName ⟨false, fun _ => [], []⟩
    return (attempt.1, { r with listener := none, link := attempt.2 })
  | some ctx =>
    let callbacks ← Sys.callbacks
    let attempt := r.link.connect socketPath vmName ⟨true, callbacks.1, callbacks.2⟩
    if attempt.1 then return (true, { r with listener := some ctx, link := attempt.2 })
    else
      release (.listener, ctx)
      return (false, { r with listener := none, link := attempt.2 })

/-! The session. -/

/-- `struct vmi_session`, with what it points to. `vcpuFds` are the entries of `vcpu_fds` that are not -1. -/
structure LiveSession where
  self : Nat
  kvmFd : Option Nat
  vmFd : Option Nat
  vcpuFds : List Nat
  nrVcpus : Int
  memslots : Option (Nat × List VmiMemslot)
  qemuPid : Option Int
  controlFd : Option Nat
  runtime : Option LiveRuntime
  kernelPgd : U64

/-- The descriptors of a list. -/
def heldFds (fds : List Nat) : Ledger HandleKind := (fds.map (HandleKind.fd, ·) : List _)

def heldRuntime : Option LiveRuntime → Ledger HandleKind
  | none => 0
  | some r => r.handles

namespace LiveSession

/-- The handles in the fields. -/
def handles (s : LiveSession) : Ledger HandleKind :=
  just HandleKind.heap s.self + held HandleKind.fd s.kvmFd + held HandleKind.fd s.vmFd + heldFds s.vcpuFds +
    held HandleKind.heap (s.memslots.map Prod.fst) + held HandleKind.fd s.controlFd + heldRuntime s.runtime

/-- What the link's own model has of it. -/
def kvmiSession (s : LiveSession) : KvmiSession := ⟨s.runtime.map LiveRuntime.link, s.nrVcpus⟩

end LiveSession

/-- The session after `attach_libkvmi`, with a runtime or without. -/
def attachRuntime (getenv : CStr → Option CStr) (vmName : CStr) (pid : Int) (s : LiveSession) : VmiProg LiveSession := do
  match ← discoverKvmiSocketPath getenv vmName pid with
  | none => return s
  | some socketPath =>
    match ← kvmiRuntimeCreate with
    | none => return s
    | some runtime =>
      let (ok, runtime) ← kvmiRuntimeConnect runtime socketPath vmName
      if ¬ ok then
        kvmiRuntimeDestroy runtime
        return s
      else
        use (.lib, runtime.lib)
        let vcpuCount ← Sys.kvmiGetVcpuCount
        return { s with
          runtime := some runtime
          nrVcpus := if s.nrVcpus = 0 then (usableVcpus vcpuCount).getD 0 else s.nrVcpus }

/-- `enumerate_memslots`: the table and its slots, if there is one. -/
def openMemslots (pid : Int) : VmiProg (Option (Nat × List VmiMemslot)) := do
  let maps := ascii "/proc/" ++ fmtInt pid ++ ascii "/maps"
  match ← acquire (.fopen maps) with
  | none => return none
  | some fp =>
    match ← acquire .calloc with
    | none =>
      release (.file, fp)
      return none
    | some table =>
      use (.file, fp)
      let text ← Sys.fileText maps
      let slots := enumerateLoop (fgetsLines 2048 text) [] 0
      release (.file, fp)
      if slots = [] then
        release (.heap, table)
        return none
      else return some (table, slots)

/-- The part of `kvmi_setup` for a QEMU process that was found. -/
def attachQemu (getenv : CStr → Option CStr) (vmName : CStr) (pid : Int) (s : LiveSession) : VmiProg LiveSession := do
  let vmFd ← duplicateFdByLinkTarget pid (ascii "anon_inode:kvm-vm")
  let vcpuFds ← discoverVcpuFds pid
  let controlFd ← connectQmpChannel pid
  let s := { s with
    qemuPid := some pid, vmFd := vmFd, vcpuFds := vcpuFds, nrVcpus := vcpuFds.length, controlFd := controlFd }
  let s ← attachRuntime getenv vmName pid s
  let memslots ← openMemslots pid
  return { s with memslots := memslots }

/-- CR3 of the first vCPU, without its low bits. -/
def captureCr3 (s : LiveSession) : VmiProg LiveSession := do
  match s.vcpuFds.head? with
  | none => return s
  | some fd =>
    if fd = 0 then return s
    else
      use (.fd, fd)
      match ← Sys.kvmGetSregs fd with
      | none => return s
      | some cr3 => return { s with kernelPgd := cr3 &&& 0x000FFFFFFFFFF000 }

def kvmiSetup (getenv : CStr → Option CStr) (vmName : CStr) : VmiProg (Option LiveSession) := do
  match ← acquire .calloc with
  | none => return none
  | some self =>
    let kvmFd ← openKvmDevice
    let s : LiveSession := ⟨self, kvmFd, none, [], 0, none, none, none, none, 0⟩
    match ← findVmPid vmName with
    | none => return some (← captureCr3 s)
    | some pid =>
      let s ← attachQemu getenv vmName pid s
      return some (← captureCr3 s)

/-- `kvmi_runtime_reconnect` of a session with that runtime. -/
def reconnectRuntime (s : LiveSession) (r : LiveRuntime) : VmiProg (Bool × LiveSession) := do
  if r.link.socketPath = [] then return (false, { s with runtime := some r })
  let (ok, r) ← kvmiRuntimeConnect r r.link.socketPath r.link.vmName
  if ¬ ok then return (false, { s with runtime := some r })
  else
    use (.lib, r.lib)
    let vcpuCount ← Sys.kvmiGetVcpuCount
    return (true, { s with runtime := some r, nrVcpus := (usableVcpus vcpuCount).getD s.nrVcpus })

def kvmiSessionHeartbeat (s : LiveSession) : VmiProg (Int × LiveSession) := do
  use (.heap, s.self)
  match s.runtime with
  | none => return (0, s)
  | some r =>
    use (.heap, r.self)
    match r.link.dom with
    | none => return (0, s)
    | some dom =>
      use (.lib, r.lib)
      let connected ← Sys.kvmiDomainIsConnected dom
      if connected then
        return (0, { s with runtime := some { r with link := { r.link with missedHeartbeats := 0 } } })
      else if r.link.miss.missedHeartbeats < kvmiHeartbeatMaxMisses then
        return (-1, { s with runtime := some { r with link := r.link.miss } })
      else
        let (ok, s) ← reconnectRuntime s { r with link := r.link.miss }
        return (if ok then 0 else -1, s)

/-- `close`, if the field holds a descriptor. -/
def closeFd (fd : Option Nat) : VmiProg Unit := do
  match fd with
  | none => return ()
  | some n => release (.fd, n)

def closeAll : List Nat → VmiProg Unit
  | [] => return ()
  | fd :: rest => do
    release (.fd, fd)
    closeAll rest

def destroyRuntime (runtime : Option LiveRuntime) : VmiProg Unit := do
  match runtime with
  | none => return ()
  | some r => kvmiRuntimeDestroy r

def freeMemslots (memslots : Option (Nat × List VmiMemslot)) : VmiProg Unit := do
  match memslots with
  | none => return ()
  | some m => release (.heap, m.1)

/-- A VM descriptor that is the one of `/dev/kvm` is left to that. -/
def closeVmFd (s : LiveSession) : VmiProg Unit := if s.vmFd ≠ s.kvmFd then closeFd s.vmFd else return ()

def kvmiTeardown (s : LiveSession) : VmiProg Unit := do
  use (.heap, s.self)
  destroyRuntime s.runtime
  closeAll s.vcpuFds
  closeFd s.controlFd
  freeMemslots s.memslots
  closeVmFd s
  closeFd s.kvmFd
  release (.heap, s.self)

/-! What each function leaves open. -/

section specs

variable {allowed : (q : SysQuery) → q.Answer → Prop}

theorem readPidCmdline_neutral (pid : Int) : Neutral AcquireCall.kind allowed (readPidCmdline pid) := by
  unfold readPidCmdline
  split
  · exact Owns.pure rfl
  · refine Owns.acquire _ (Owns.pure rfl) fun fd => Owns.use (by simp [AcquireCall.kind]) ?_
    refine Owns.ask _ fun bytes _ => Owns.release rfl ?_
    cases bytes with
    | none => exact Owns.pure rfl
    | some bytes => exact Owns.pure rfl

theorem findVmPidLoop_owns (vmName : CStr) (proc : Nat) (entries : List CStr) :
    Owns AcquireCall.kind allowed (just HandleKind.dir proc) (findVmPidLoop vmName proc entries) fun _ m => m = 0 := by
  induction entries with
  | nil => exact Owns.release (add_zero _).symm (Owns.pure rfl)
  | cons name rest ih =>
    refine Owns.use (Multiset.mem_singleton_self _) ?_
    split
    · exact ih
    · refine (readPidCmdline_neutral _).then fun cmdline => ?_
      cases cmdline with
      | none => exact ih
      | some cmdline =>
        dsimp only
        split
        · exact Owns.release (add_zero _).symm (Owns.pure rfl)
        · exact ih

theorem findVmPid_neutral (vmName : CStr) : Neutral AcquireCall.kind allowed (findVmPid vmName) :=
  Owns.acquire _ (Owns.pure rfl) fun proc => Owns.ask _ fun entries _ => findVmPidLoop_owns vmName proc entries

theorem openKvmDevice_yields : Yields AcquireCall.kind allowed .fd openKvmDevice := by
  refine Owns.acquire _ (Owns.pure rfl) fun fd => Owns.use (by simp [AcquireCall.kind]) ?_
  refine Owns.ask _ fun apiVer _ => ?_
  split
  · exact Owns.release rfl (Owns.pure rfl)
  · exact Owns.pure rfl

theorem openPidFd_yields (pid : Int) (fdName : CStr) : Yields AcquireCall.kind allowed .fd (openPidFd pid fdName) := by
  unfold openPidFd
  dsimp only
  split
  · exact Owns.pure rfl
  · exact Owns.acquire _ (yields_acquire _) fun _ => Owns.pure rfl

theorem openIfLinked_owns (pid : Int) (dir : Nat) (needle fdName : CStr) :
    Owns AcquireCall.kind allowed (just HandleKind.dir dir) (openIfLinked pid dir needle fdName)
      fun r m => m = held HandleKind.fd r + just HandleKind.dir dir := by
  have hnone : Owns AcquireCall.kind allowed (just HandleKind.dir dir) (pure none : VmiProg (Option Nat))
      fun r m => m = held HandleKind.fd r + just HandleKind.dir dir := Owns.pure (zero_add _).symm
  refine Owns.use (Multiset.mem_singleton_self _) ?_
  dsimp only
  split
  · exact hnone
  · refine Owns.ask _ fun target _ => ?_
    cases target with
    | none => exact hnone
    | some target =>
      dsimp only
      split
      · exact Owns.tailCall (openPidFd_yields pid fdName) (zero_add _).symm fun r m hm => by rw [hm]
      · exact hnone

theorem duplicateFdLoop_owns (pid : Int) (needle : CStr) (dir : Nat) (entries : List CStr) :
    Owns AcquireCall.kind allowed (just HandleKind.dir dir) (duplicateFdLoop pid needle dir entries)
      fun r m => m = held HandleKind.fd r := by
  induction entries with
  | nil => exact Owns.release (add_zero _).symm (Owns.pure rfl)
  | cons name rest ih =>
    refine (openIfLinked_owns pid dir needle name).bind fun r m hm => ?_
    subst hm
    cases r with
    | none =>
      rw [held, zero_add]
      exact ih
    | some fd => exact Owns.release (add_comm _ _) (Owns.pure rfl)

theorem duplicateFdByLinkTarget_yields (pid : Int) (needle : CStr) :
    Yields AcquireCall.kind allowed .fd (duplicateFdByLinkTarget pid needle) :=
  Owns.acquire _ (Owns.pure rfl) fun dir => Owns.ask _ fun entries _ => duplicateFdLoop_owns pid needle dir entries

theorem heldFds_append_one (fds : List Nat) (fd : Nat) : heldFds (fds ++ [fd]) = heldFds fds + just HandleKind.fd fd := by
  rw [heldFds, List.map_append, ← Multiset.coe_add]
  rfl

theorem discoverVcpuLoop_owns (pid : Int) (dir : Nat) (entries : List CStr) (fds : List Nat) :
    Owns AcquireCall.kind allowed (just HandleKind.dir dir + heldFds fds) (discoverVcpuLoop pid dir entries fds)
      fun fds m => m = heldFds fds := by
  induction entries generalizing fds with
  | nil => exact Owns.release rfl (Owns.pure rfl)
  | cons name rest ih =>
    unfold discoverVcpuLoop
    split
    · exact Owns.release rfl (Owns.pure rfl)
    · refine (openIfLinked_owns pid dir _ name).call rfl fun r m hm => ?_
      subst hm
      cases r with
      | none =>
        rw [held, zero_add]
        exact ih fds
      | some fd =>
        have hmore : held HandleKind.fd (some fd) + just HandleKind.dir dir + heldFds fds =
            just HandleKind.dir dir + heldFds (fds ++ [fd]) := by
          rw [heldFds_append_one, held]
          abel
        rw [hmore]
        exact ih (fds ++ [fd])

theorem discoverVcpuFds_owns (pid : Int) :
    Owns AcquireCall.kind allowed 0 (discoverVcpuFds pid) fun fds m => m = heldFds fds :=
  Owns.acquire _ (Owns.pure rfl) fun dir => Owns.ask _ fun entries _ => discoverVcpuLoop_owns pid dir entries []

theorem socketReadText_owns (fd : Nat) :
    Owns AcquireCall.kind allowed (just HandleKind.fd fd) (socketReadText fd) fun _ m => m = just HandleKind.fd fd := by
  refine Owns.use (Multiset.mem_singleton_self _) (Owns.ask _ fun bytes _ => ?_)
  cases bytes with
  | none => exact Owns.pure rfl
  | some bytes => exact Owns.pure rfl

theorem qmpHandshake_owns (fd : Nat) :
    Owns AcquireCall.kind allowed (just HandleKind.fd fd) (qmpHandshake fd) fun _ m => m = just HandleKind.fd fd := by
  refine (socketReadText_owns fd).bind fun greeting m hm => ?_
  subst hm
  split
  · exact Owns.pure rfl
  · refine Owns.use (Multiset.mem_singleton_self _) (Owns.ask _ fun written _ => ?_)
    split
    · exact Owns.pure rfl
    · refine (socketReadText_owns fd).bind fun reply m hm => ?_
      subst hm
      cases reply with
      | none => exact Owns.pure rfl
      | some reply => exact Owns.pure rfl

theorem connectQmpChannel_yields (pid : Int) : Yields AcquireCall.kind allowed .fd (connectQmpChannel pid) := by
  refine (readPidCmdline_neutral pid).then fun cmdline => ?_
  cases cmdline with
  | none => exact Owns.pure rfl
  | some cmdline =>
    dsimp only
    cases extractQmpPathFromCmdline cmdline sunPathSize with
    | none => exact Owns.pure rfl
    | some qmpPath =>
      refine Owns.acquire _ (Owns.pure rfl) fun fd => Owns.use (by simp [AcquireCall.kind]) ?_
      refine Owns.ask _ fun connected _ => ?_
      split
      · exact Owns.release rfl (Owns.pure rfl)
      · refine (qmpHandshake_owns fd).call rfl fun ok m hm => ?_
        subst hm
        split
        · exact Owns.release rfl (Owns.pure rfl)
        · exact Owns.pure rfl

theorem firstAccessible_neutral (paths : List CStr) : Neutral AcquireCall.kind allowed (firstAccessible paths) := by
  induction paths with
  | nil => exact Owns.pure rfl
  | cons path rest ih =>
    unfold firstAccessible
    split
    · exact ih
    · refine Owns.ask _ fun found _ => ?_
      split
      · exact Owns.pure rfl
      · exact ih

theorem discoverKvmiSocketPath_neutral (getenv : CStr → Option CStr) (vmName : CStr) (pid : Int) :
    Neutral AcquireCall.kind allowed (discoverKvmiSocketPath getenv vmName pid) := by
  unfold discoverKvmiSocketPath
  split
  · exact Owns.pure rfl
  · refine (readPidCmdline_neutral pid).then fun cmdline => ?_
    split
    · exact Owns.pure rfl
    · exact firstAccessible_neutral _

/-! The runtime. -/

theorem loadRequiredSymbols_owns (lib : Nat) (names : List CStr) :
    Owns AcquireCall.kind allowed (just HandleKind.lib lib) (loadRequiredSymbols lib names)
      fun _ m => m = just HandleKind.lib lib := by
  induction names with
  | nil => exact Owns.pure rfl
  | cons name rest ih =>
    refine Owns.use (Multiset.mem_singleton_self _) (Owns.ask _ fun found _ => ?_)
    split
    · exact ih
    · exact Owns.pure rfl

theorem openLibkvmi_yields : Yields AcquireCall.kind allowed .lib openLibkvmi :=
  Owns.acquire _ (yields_acquire _) fun _ => Owns.pure rfl

theorem kvmiRuntimeCreate_owns : Owns AcquireCall.kind allowed 0 kvmiRuntimeCreate fun r m => m = heldRuntime r := by
  refine Owns.acquire _ (Owns.pure rfl) fun self => openLibkvmi_yields.then fun lib => ?_
  cases lib with
  | none => exact Owns.release rfl (Owns.pure rfl)
  | some lib =>
    refine (loadRequiredSymbols_owns lib _).call rfl fun found m hm => ?_
    subst hm
    split
    · refine Owns.pure ?_
      rw [add_zero, add_comm]
      exact (add_zero _).symm
    · exact Owns.release rfl (Owns.release rfl (Owns.pure rfl))

theorem uninitListener_owns (r : LiveRuntime) :
    Owns AcquireCall.kind allowed r.handles (uninitListener r)
      fun _ m => m = just HandleKind.heap r.self + just HandleKind.lib r.lib := by
  rw [uninitListener, LiveRuntime.handles]
  cases r.listener with
  | none => exact Owns.pure (add_zero _)
  | some ctx => exact Owns.use (by simp) (Owns.release (add_comm _ _) (Owns.pure rfl))

theorem kvmiRuntimeDestroy_owns (r : LiveRuntime) :
    Owns AcquireCall.kind allowed r.handles (kvmiRuntimeDestroy r) fun _ m => m = 0 := by
  refine (uninitListener_owns r).bind fun _ m hm => ?_
  subst hm
  exact Owns.release (add_comm _ _) (Owns.release (add_zero _).symm (Owns.pure rfl))

/-- What an attempt leaves: the handles of the runtime, and its link as the link's model has it. -/
structure Attempted (r : LiveRuntime) (socketPath vmName : CStr) (result : Bool × LiveRuntime)
    (m : Ledger HandleKind) : Prop where
  handles : m = result.2.handles
  link : ∃ env, r.link.connect socketPath vmName env = (result.1, result.2.link)

theorem kvmiRuntimeConnect_owns (r : LiveRuntime) (socketPath vmName : CStr) :
    Owns AcquireCall.kind allowed r.handles (kvmiRuntimeConnect r socketPath vmName) (Attempted r socketPath vmName) := by
  refine Owns.use (by simp [LiveRuntime.handles]) ?_
  refine (uninitListener_owns r).bind fun _ m hm => ?_
  subst hm
  refine Owns.use (by simp) (Owns.acquire _ ?_ fun ctx => Owns.ask _ fun callbacks _ => ?_)
  · exact Owns.pure ⟨(add_zero _).symm, ⟨false, fun _ => [], []⟩, rfl⟩
  · dsimp only
    split
    · next hok =>
      exact Owns.pure ⟨add_comm _ _, ⟨true, callbacks.1, callbacks.2⟩, Prod.ext hok rfl⟩
    · next hok =>
      refine Owns.release rfl (Owns.pure ⟨(add_zero _).symm, ⟨true, callbacks.1, callbacks.2⟩, ?_⟩)
      exact Prod.ext (Bool.eq_false_iff.mpr hok) rfl

/-! The session. -/

theorem openMemslots_owns (pid : Int) :
    Owns AcquireCall.kind allowed 0 (openMemslots pid) fun r m => m = held HandleKind.heap (r.map Prod.fst) := by
  refine Owns.acquire _ (Owns.pure rfl) fun fp => Owns.acquire _ ?_ fun table => Owns.use (by simp [AcquireCall.kind]) ?_
  · exact Owns.release rfl (Owns.pure rfl)
  · refine Owns.ask _ fun text _ => ?_
    dsimp only
    refine Owns.release (add_left_comm _ _ _) ?_
    split
    · exact Owns.release rfl (Owns.pure rfl)
    · exact Owns.pure rfl

theorem attachRuntime_owns (getenv : CStr → Option CStr) (vmName : CStr) (pid : Int) {s : LiveSession}
    (hs : s.runtime = none) (hm : s.memslots = none) :
    Owns AcquireCall.kind allowed s.handles (attachRuntime getenv vmName pid s)
      fun s' m => m = s'.handles ∧ s'.memslots = none := by
  have hsame : Owns AcquireCall.kind allowed s.handles (pure s : VmiProg LiveSession)
      fun s' m => m = s'.handles ∧ s'.memslots = none := Owns.pure ⟨rfl, hm⟩
  refine (discoverKvmiSocketPath_neutral getenv vmName pid).then fun path => ?_
  cases path with
  | none => exact hsame
  | some path =>
    refine kvmiRuntimeCreate_owns.call (zero_add _).symm fun r m hr => ?_
    subst hr
    cases r with
    | none =>
      rw [heldRuntime, zero_add]
      exact hsame
    | some r =>
      refine (kvmiRuntimeConnect_owns r path vmName).call rfl fun result m hresult => ?_
      rw [hresult.handles]
      dsimp only
      split
      · refine (kvmiRuntimeDestroy_owns result.2).call rfl fun _ m hm => ?_
        rw [hm, zero_add]
        exact hsame
      · refine Owns.use (by simp [LiveRuntime.handles]) (Owns.ask _ fun vcpuCount _ => Owns.pure ⟨?_, hm⟩)
        simp only [LiveSession.handles, hs, heldRuntime]
        abel

theorem attachQemu_owns (getenv : CStr → Option CStr) (vmName : CStr) (pid : Int) (self : Nat) (kvmFd : Option Nat) :
    Owns AcquireCall.kind allowed (held HandleKind.fd kvmFd + just HandleKind.heap self)
      (attachQemu getenv vmName pid ⟨self, kvmFd, none, [], 0, none, none, none, none, 0⟩) fun s m => m = s.handles := by
  refine (duplicateFdByLinkTarget_yields pid _).then fun vmFd => ?_
  refine (discoverVcpuFds_owns pid).call (zero_add _).symm fun vcpuFds m hm => ?_
  subst hm
  refine (connectQmpChannel_yields pid).then fun controlFd => ?_
  dsimp only
  refine Owns.of_eq ?_ ((attachRuntime_owns getenv vmName pid rfl rfl).bind fun s m hm => ?_)
  · simp only [LiveSession.handles, heldRuntime, held, Option.map_none]
    abel
  · obtain ⟨rfl, hslots⟩ := hm
    refine (openMemslots_owns pid).call (zero_add _).symm fun memslots m hm => Owns.pure ?_
    simp only [hm, LiveSession.handles, hslots, held, Option.map_none]
    abel

theorem captureCr3_owns (s : LiveSession) :
    Owns AcquireCall.kind allowed s.handles (captureCr3 s) fun s' m => m = s'.handles := by
  unfold captureCr3
  split
  · exact Owns.pure rfl
  · next fd hfd =>
    have hmem : fd ∈ s.vcpuFds := List.mem_of_head? hfd
    split
    · exact Owns.pure rfl
    · refine Owns.use ?_ (Owns.ask _ fun cr3 _ => ?_)
      · simp [LiveSession.handles, heldFds, hmem]
      · cases cr3 with
        | none => exact Owns.pure rfl
        | some cr3 => exact Owns.pure rfl

def heldSession : Option LiveSession → Ledger HandleKind
  | none => 0
  | some s => s.handles

/-- **Setting up.** The handles that are open afterwards are those of the session. -/
theorem kvmiSetup_owns (getenv : CStr → Option CStr) (vmName : CStr) :
    Owns AcquireCall.kind allowed 0 (kvmiSetup getenv vmName) fun s m => m = heldSession s := by
  refine Owns.acquire _ (Owns.pure rfl) fun self => openKvmDevice_yields.then fun kvmFd => ?_
  rw [add_zero]
  dsimp only
  refine (findVmPid_neutral vmName).then fun pid => ?_
  cases pid with
  | none =>
    refine Owns.of_eq ?_ ((captureCr3_owns _).bind fun s m hm => Owns.pure hm)
    simp only [LiveSession.handles, heldRuntime, heldFds, held, Option.map_none, List.map_nil, Multiset.coe_nil,
      AcquireCall.kind]
    abel
  | some pid =>
    refine (attachQemu_owns getenv vmName pid self kvmFd).bind fun s m hm => ?_
    subst hm
    exact (captureCr3_owns s).bind fun s m hm => Owns.pure hm

theorem reconnectRuntime_owns (s : LiveSession) (r : LiveRuntime) :
    Owns AcquireCall.kind allowed { s with runtime := some r }.handles (reconnectRuntime s r) fun result m =>
      m = result.2.handles ∧ ∃ connect vcpuCount, ∀ env : HeartbeatEnv,
        env.connect = connect → env.vcpuCount = vcpuCount → kvmiRuntimeReconnect s.kvmiSession r.link env = (result.1, result.2.kvmiSession) := by
  unfold reconnectRuntime
  split
  · next hpath =>
    refine Owns.pure ⟨rfl, ⟨false, fun _ => [], []⟩, none, fun env _ _ => ?_⟩
    rw [kvmiRuntimeReconnect, if_pos hpath]
    rfl
  · next hpath =>
    refine (kvmiRuntimeConnect_owns r r.link.socketPath r.link.vmName).call (add_comm _ _) fun result m hresult => ?_
    obtain ⟨hhandles, connect, hconnect⟩ := hresult
    rw [hhandles]
    have hlink : ∀ env : HeartbeatEnv, env.connect = connect → kvmiRuntimeReconnect s.kvmiSession r.link env =
        if ¬ result.1 then (false, { s.kvmiSession with runtime := some result.2.link })
        else (true, ⟨some result.2.link, (usableVcpus env.vcpuCount).getD s.nrVcpus⟩) := by
      intro env henv
      rw [kvmiRuntimeReconnect, if_neg hpath, henv, hconnect]
      rfl
    dsimp only
    split
    · next hok =>
      refine Owns.pure ⟨add_comm _ _, connect, none, fun env henv _ => ?_⟩
      rw [hlink env henv, if_pos hok]
      rfl
    · next hok =>
      refine Owns.use (by simp [LiveRuntime.handles]) (Owns.ask _ fun vcpuCount _ => ?_)
      refine Owns.pure ⟨add_comm _ _, connect, vcpuCount, fun env henv hcount => ?_⟩
      rw [hlink env henv, if_neg hok, hcount]
      rfl

/-- What a heartbeat leaves: the handles of the session, and its link as the link's model has it. -/
structure Beaten (s : LiveSession) (result : Int × LiveSession) (m : Ledger HandleKind) : Prop where
  handles : m = result.2.handles
  link : ∃ env, (heartbeat s.kvmiSession env).ret = result.1 ∧
    (heartbeat s.kvmiSession env).session = result.2.kvmiSession

/-- Nothing is connected, and no connection is made. -/
def silentEnv (connected : Bool) : HeartbeatEnv := ⟨fun _ => connected, ⟨false, fun _ => [], []⟩, none, fun _ => false⟩

/-- A session without a domain. -/
theorem beaten_dead {s : LiveSession} (h : s.kvmiSession.dom = none) : Beaten s (0, s) s.handles := by
  refine ⟨rfl, silentEnv false, ?_⟩
  rw [heartbeat_dead h]
  exact ⟨rfl, rfl⟩

/-- **A heartbeat.** -/
theorem heartbeat_owns (s : LiveSession) :
    Owns AcquireCall.kind allowed s.handles (kvmiSessionHeartbeat s) (Beaten s) := by
  refine Owns.use (by simp [LiveSession.handles]) ?_
  cases hr : s.runtime with
  | none =>
    refine Owns.pure (beaten_dead ?_)
    rw [KvmiSession.dom, LiveSession.kvmiSession, hr]
    rfl
  | some r =>
    have hruntime : s.kvmiSession.runtime = some r.link := by
      rw [LiveSession.kvmiSession, hr]
      rfl
    refine Owns.use (by simp [LiveSession.handles, hr, heldRuntime, LiveRuntime.handles]) ?_
    cases hdom : r.link.dom with
    | none =>
      refine Owns.pure (beaten_dead ?_)
      rw [KvmiSession.dom, hruntime]
      exact hdom
    | some dom =>
      refine Owns.use (by simp [LiveSession.handles, hr, heldRuntime, LiveRuntime.handles]) ?_
      refine Owns.ask _ fun connected _ => ?_
      have hhandles : ∀ link, s.handles = { s with runtime := some { r with link := link } }.handles := by
        intro link
        simp only [LiveSession.handles, hr]
        rfl
      split
      · next hconn =>
        refine Owns.pure ⟨hhandles _, silentEnv true, ?_⟩
        simp only [heartbeat, hruntime, hdom, silentEnv, if_true]
        exact ⟨trivial, rfl⟩
      · split
        · next hmiss =>
          refine Owns.pure ⟨hhandles _, silentEnv false, ?_⟩
          simp only [heartbeat, hruntime, hdom, silentEnv, if_pos hmiss]
          exact ⟨rfl, rfl⟩
        · next hmiss =>
          refine Owns.of_eq (hhandles r.link.miss) ((reconnectRuntime_owns s _).bind fun result m hresult => ?_)
          obtain ⟨rfl, connect, vcpuCount, hlink⟩ := hresult
          refine Owns.pure ⟨rfl, ⟨fun _ => false, connect, vcpuCount, fun _ => false⟩, ?_⟩
          simp only [heartbeat, hruntime, hdom, if_neg hmiss]
          rw [hlink _ rfl rfl]
          exact ⟨rfl, rfl⟩

/-! Tearing down. -/

theorem closeFd_owns (fd : Option Nat) :
    Owns AcquireCall.kind allowed (held HandleKind.fd fd) (closeFd fd) fun _ m => m = 0 := by
  cases fd with
  | none => exact Owns.pure rfl
  | some n => exact Owns.release (add_zero _).symm (Owns.pure rfl)

theorem heldFds_cons (fd : Nat) (fds : List Nat) : heldFds (fd :: fds) = just HandleKind.fd fd + heldFds fds := by
  rw [heldFds, List.map_cons, ← Multiset.cons_coe, ← Multiset.singleton_add]
  rfl

theorem closeAll_owns (fds : List Nat) : Owns AcquireCall.kind allowed (heldFds fds) (closeAll fds) fun _ m => m = 0 := by
  induction fds with
  | nil => exact Owns.pure rfl
  | cons fd rest ih => exact Owns.release (heldFds_cons fd rest) ih

theorem closeVmFd_owns {s : LiveSession} (h : ∀ n, s.vmFd = some n → s.kvmFd ≠ some n) :
    Owns AcquireCall.kind allowed (held HandleKind.fd s.vmFd) (closeVmFd s) fun _ m => m = 0 := by
  unfold closeVmFd
  split
  · exact closeFd_owns s.vmFd
  · next heq =>
    rw [not_not] at heq
    cases hvm : s.vmFd with
    | none => exact Owns.pure rfl
    | some n => exact absurd (heq ▸ hvm) (h n hvm)

theorem destroyRuntime_owns (r : Option LiveRuntime) :
    Owns AcquireCall.kind allowed (heldRuntime r) (destroyRuntime r) fun _ m => m = 0 := by
  cases r with
  | none => exact Owns.pure rfl
  | some r => exact kvmiRuntimeDestroy_owns r

theorem freeMemslots_owns (memslots : Option (Nat × List VmiMemslot)) :
    Owns AcquireCall.kind allowed (held HandleKind.heap (memslots.map Prod.fst)) (freeMemslots memslots)
      fun _ m => m = 0 := by
  cases memslots with
  | none => exact Owns.pure rfl
  | some m => exact Owns.release (add_zero _).symm (Owns.pure rfl)

/-- **Tearing down.** Every handle of the session is closed, once. -/
theorem kvmiTeardown_owns (s : LiveSession) :
    Owns AcquireCall.kind allowed s.handles (kvmiTeardown s) fun _ m => m = 0 := by
  -- in the order in which they are closed
  have horder : s.handles = heldRuntime s.runtime + (heldFds s.vcpuFds + (held HandleKind.fd s.controlFd +
      (held HandleKind.heap (s.memslots.map Prod.fst) + (held HandleKind.fd s.vmFd +
        (held HandleKind.fd s.kvmFd + just HandleKind.heap s.self))))) := by
    rw [LiveSession.handles]
    abel
  refine Owns.nodup fun hnodup => Owns.use (by simp [LiveSession.handles]) ?_
  rw [horder] at hnodup ⊢
  refine (destroyRuntime_owns s.runtime).discard fun _ => (closeAll_owns s.vcpuFds).discard fun _ => ?_
  refine (closeFd_owns s.controlFd).discard fun _ => (freeMemslots_owns s.memslots).discard fun _ => ?_
  refine (closeVmFd_owns fun n hvm hkvm => ?_).discard fun _ => (closeFd_owns s.kvmFd).discard fun _ => ?_
  · simp [hvm, hkvm, held, Multiset.nodup_add] at hnodup
  · exact Owns.release (add_zero _).symm (Owns.pure rfl)

end specs

end SentinelStack.Vmi
