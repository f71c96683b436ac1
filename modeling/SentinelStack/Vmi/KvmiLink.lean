import SentinelStack.Lib.CTypes
import SentinelStack.Lib.Run

/- The link to the introspected domain (`kvmi_setup.c`): attaching a libkvmi
   runtime to a session, and the heartbeat that watches the link and reconnects
   after three misses.

   A reconnect clears `dom` before it tries, and a heartbeat takes a missing `dom`
   for a session that never had a link. Main results: `heartbeat_live_iff` — over a
   sequence of heartbeats, 0 is returned only with the domain connected, if and
   only if no reconnect but the last heartbeat's fails, and a domain that was
   reconnected is connected on return; `dead_after_failed_reconnect` — after a
   failed reconnect every heartbeat returns 0 and none tries again. -/
namespace SentinelStack.Vmi
open SentinelStack.Lib

/-- A domain handle of libkvmi, never NULL. -/
abbrev Dom := Nat

def kvmiConnectWaitSteps : Nat := 20
def kvmiHeartbeatMaxMisses : U32 := 3
def vmiMaxVcpus : U32 := 64

/-- `struct kvmi_runtime`, with every function of the library found. -/
structure KvmiRuntime where
  listener : Bool
  dom : Option Dom
  pendingDom : Option Dom
  pendingHandshake : Bool
  missedHeartbeats : U32
  vmName : CStr
  socketPath : CStr
  deriving DecidableEq, Repr

def KvmiRuntime.create : KvmiRuntime := ⟨false, none, none, false, 0, [], []⟩

/-- The part of `struct vmi_session` that the link uses. -/
structure KvmiSession where
  runtime : Option KvmiRuntime
  nrVcpus : Int
  deriving DecidableEq, Repr

/-- What the library calls back while it listens. -/
inductive LinkCallback where
  | accept (dom : Dom)
  | handshake

/-- What a connection attempt meets: whether the socket can be listened on, the callbacks before each
    look at the pending link, and those before the last look. -/
structure ConnectEnv where
  listens : Bool
  rounds : Nat → List LinkCallback
  late : List LinkCallback

namespace KvmiRuntime

def miss (r : KvmiRuntime) : KvmiRuntime := { r with missedHeartbeats := r.missedHeartbeats + 1 }

/-- `kvmi_accept_cb` and `kvmi_handshake_cb`. -/
def callback (r : KvmiRuntime) : LinkCallback → KvmiRuntime
  | .accept dom => { r with pendingDom := some dom }
  | .handshake => { r with pendingHandshake := true }

/-- The loop that waits for both callbacks, with the steps left. -/
def await (rounds : Nat → List LinkCallback) : Nat → Nat → KvmiRuntime → KvmiRuntime
  | 0, _, r => r
  | steps + 1, i, r =>
    let r := (rounds i).foldl callback r
    if r.pendingDom.isSome ∧ r.pendingHandshake then r else await rounds steps (i + 1) r

/-- `kvmi_runtime_connect`: whether it returns 0, and the runtime afterwards. -/
def connect (r : KvmiRuntime) (socketPath vmName : CStr) (env : ConnectEnv) : Bool × KvmiRuntime :=
  let r := { r with
    listener := env.listens
    dom := none
    pendingDom := none
    pendingHandshake := false
    vmName := strncpyz 64 vmName }
  if ¬ env.listens then (false, r)
  else
    let r := env.late.foldl callback (await env.rounds kvmiConnectWaitSteps 0 r)
    if r.pendingDom.isSome ∧ r.pendingHandshake then
      (true, { r with dom := r.pendingDom, missedHeartbeats := 0, socketPath := strncpyz 108 socketPath })
    else (false, { r with listener := false })

end KvmiRuntime

/-- The number of vCPUs that `kvmi_get_vcpu_count` gives, if it is one to take. -/
def usableVcpus (vcpuCount : Option U32) : Option Int :=
  (vcpuCount.filter fun n => 0 < n ∧ n ≤ vmiMaxVcpus).map fun n => (n.toNat : Int)

/-- What attaching meets: the socket path if one is discovered, whether the library loads, the
    connection, and what `kvmi_get_vcpu_count` gives. -/
structure AttachEnv where
  socketPath : Option CStr
  loads : Bool
  connect : ConnectEnv
  vcpuCount : Option U32

/-- `attach_libkvmi`; `none` when it returns -1 and the session is left without a runtime. -/
def attachLibkvmi (session : KvmiSession) (vmName : CStr) (env : AttachEnv) : Option KvmiSession :=
  match env.socketPath with
  | none => none
  | some socketPath =>
    if ¬ env.loads then none
    else
      let (ok, runtime) := KvmiRuntime.create.connect socketPath vmName env.connect
      if ¬ ok then none
      else
        let nrVcpus := if session.nrVcpus = 0 then (usableVcpus env.vcpuCount).getD 0 else session.nrVcpus
        some ⟨some runtime, nrVcpus⟩

/-- What a heartbeat meets: which domains are connected when it looks, the connection if it comes to
    one, the number of vCPUs then, and which domains are connected when that is over. -/
structure HeartbeatEnv where
  connected : Dom → Bool
  connect : ConnectEnv
  vcpuCount : Option U32
  connectedAfter : Dom → Bool

/-- `kvmi_runtime_reconnect` of a session with the given runtime. -/
def kvmiRuntimeReconnect (session : KvmiSession) (r : KvmiRuntime) (env : HeartbeatEnv) : Bool × KvmiSession :=
  if r.socketPath = [] then (false, { session with runtime := some r })
  else
    let (ok, r') := r.connect r.socketPath r.vmName env.connect
    if ¬ ok then (false, { session with runtime := some r' })
    else (true, ⟨some r', (usableVcpus env.vcpuCount).getD session.nrVcpus⟩)

/-- The return value, the session, and which domains are connected on return. -/
structure HeartbeatResult where
  ret : Int
  session : KvmiSession
  link : Dom → Bool

/-- `kvmi_session_heartbeat`. -/
def heartbeat (session : KvmiSession) (env : HeartbeatEnv) : HeartbeatResult :=
  match session.runtime with
  | none => ⟨0, session, env.connected⟩
  | some r =>
    match r.dom with
    | none => ⟨0, session, env.connected⟩
    | some dom =>
      if env.connected dom then ⟨0, { session with runtime := some { r with missedHeartbeats := 0 } }, env.connected⟩
      else if r.miss.missedHeartbeats < kvmiHeartbeatMaxMisses then
        ⟨-1, { session with runtime := some r.miss }, env.connected⟩
      else
        let (ok, session') := kvmiRuntimeReconnect session r.miss env
        ⟨if ok then 0 else -1, session', env.connectedAfter⟩

namespace KvmiSession

def dom (s : KvmiSession) : Option Dom := s.runtime.bind KvmiRuntime.dom

def beat (s : KvmiSession) (env : HeartbeatEnv) : KvmiSession := (heartbeat s env).session

end KvmiSession

/-- 0 means that the session holds a domain and is connected to it. -/
def HeartbeatResult.Live (result : HeartbeatResult) : Prop :=
  result.ret = 0 → ∃ dom, result.session.dom = some dom ∧ result.link dom = true

/-- The heartbeat comes to a connection attempt: the third miss in a row, of a session with a path. -/
def Attempts (s : KvmiSession) (env : HeartbeatEnv) (r : KvmiRuntime) : Prop :=
  s.runtime = some r ∧ (∃ dom, r.dom = some dom ∧ env.connected dom = false) ∧
    kvmiHeartbeatMaxMisses ≤ r.miss.missedHeartbeats ∧ r.miss.socketPath ≠ []

def KvmiRuntime.retry (r : KvmiRuntime) (env : HeartbeatEnv) : Bool × KvmiRuntime :=
  r.miss.connect r.miss.socketPath r.miss.vmName env.connect

def ReconnectFails (s : KvmiSession) (env : HeartbeatEnv) : Prop :=
  ∃ r, Attempts s env r ∧ (r.retry env).1 = false

/-- If the heartbeat reconnects, the new domain is connected on return. -/
def ReconnectedUp (s : KvmiSession) (env : HeartbeatEnv) : Prop :=
  ∀ r dom, Attempts s env r → (s.beat env).dom = some dom → env.connectedAfter dom = true

/-! One heartbeat. -/

namespace KvmiRuntime

variable {r : KvmiRuntime} {socketPath vmName : CStr} {env : ConnectEnv}

theorem dom_callback (r : KvmiRuntime) (cb : LinkCallback) : (r.callback cb).dom = r.dom := by
  cases cb <;> rfl

theorem dom_foldl_callback (cbs : List LinkCallback) (r : KvmiRuntime) : (cbs.foldl callback r).dom = r.dom := by
  induction cbs generalizing r with
  | nil => rfl
  | cons cb cbs ih => rw [List.foldl_cons, ih, dom_callback]

theorem dom_await (rounds : Nat → List LinkCallback) (steps i : Nat) (r : KvmiRuntime) :
    (await rounds steps i r).dom = r.dom := by
  induction steps generalizing i r with
  | zero => rfl
  | succ steps ih =>
    rw [await]
    split
    · exact dom_foldl_callback _ _
    · rw [ih, dom_foldl_callback]

theorem dom_connect_iff : (r.connect socketPath vmName env).2.dom ≠ none ↔ (r.connect socketPath vmName env).1 = true := by
  unfold connect
  dsimp only
  split
  · simp
  · split
    · next hready => exact iff_of_true (Option.isSome_iff_ne_none.mp hready.1) rfl
    · simp [dom_foldl_callback, dom_await]

end KvmiRuntime

section beat
variable {s : KvmiSession} {env : HeartbeatEnv}

/-- A session without a domain answers every heartbeat with 0 and stays as it is. -/
theorem heartbeat_dead (h : s.dom = none) (env : HeartbeatEnv) : heartbeat s env = ⟨0, s, env.connected⟩ := by
  unfold heartbeat
  split
  · rfl
  · next r hr =>
    have hdom : r.dom = none := by
      rw [KvmiSession.dom, hr] at h
      exact h
    rw [hdom]

/-- The third miss in a row: the heartbeat is the reconnect. -/
theorem heartbeat_of_attempts {r : KvmiRuntime} (h : Attempts s env r) :
    (heartbeat s env).link = env.connectedAfter ∧ ((heartbeat s env).ret = 0 ↔ (r.retry env).1 = true) ∧
      (s.beat env).dom = (r.retry env).2.dom := by
  obtain ⟨hr, ⟨dom, hdom, hdown⟩, hmisses, hpath⟩ := h
  have hneg : (-1 : Int) ≠ 0 := by decide
  have hreconnect : kvmiRuntimeReconnect s r.miss env =
      if ¬ (r.retry env).1 = true then (false, { s with runtime := some (r.retry env).2 })
      else (true, ⟨some (r.retry env).2, (usableVcpus env.vcpuCount).getD s.nrVcpus⟩) := if_neg hpath
  unfold KvmiSession.beat heartbeat
  rw [hr]
  dsimp only
  rw [hdom]
  dsimp only
  rw [hdown, if_neg Bool.false_ne_true, if_neg (BitVec.not_lt.mpr hmisses), hreconnect]
  cases (r.retry env).1 with
  | true => exact ⟨rfl, ⟨fun _ => rfl, fun _ => rfl⟩, rfl⟩
  | false => exact ⟨rfl, ⟨fun h => absurd h hneg, fun h => absurd h Bool.false_ne_true⟩, rfl⟩

/-- Any other heartbeat of a session with a domain keeps it, and returns 0 only if it is connected. -/
theorem heartbeat_of_not_attempts (hdom : s.dom ≠ none) (h : ∀ r, ¬ Attempts s env r) :
    (s.beat env).dom = s.dom ∧ (heartbeat s env).Live := by
  obtain ⟨dom, hdom⟩ := Option.ne_none_iff_exists'.mp hdom
  obtain ⟨r, hr, hrdom⟩ := Option.bind_eq_some_iff.mp hdom
  have hneg : (-1 : Int) ≠ 0 := by decide
  unfold KvmiSession.beat HeartbeatResult.Live heartbeat
  rw [hdom, hr]
  dsimp only
  rw [hrdom]
  dsimp only
  cases hup : env.connected dom with
  | true =>
    rw [if_pos rfl]
    exact ⟨rfl, fun _ => ⟨dom, rfl, hup⟩⟩
  | false =>
    rw [if_neg Bool.false_ne_true]
    by_cases hmisses : r.miss.missedHeartbeats < kvmiHeartbeatMaxMisses
    · rw [if_pos hmisses]
      exact ⟨hrdom, fun h => absurd h hneg⟩
    · -- the path is what is missing for an attempt
      have hpath : r.miss.socketPath = [] := by
        by_contra hne
        exact h r ⟨hr, ⟨dom, hrdom, hup⟩, BitVec.not_lt.mp hmisses, hne⟩
      rw [if_neg hmisses, kvmiRuntimeReconnect, if_pos hpath]
      exact ⟨hrdom, fun h => absurd h hneg⟩

/-- **One heartbeat** of a session with a domain: it answers truly if and only if a domain that it
    reconnected to is connected, and loses the domain if and only if a reconnect fails. -/
theorem heartbeat_spec (hdom : s.dom ≠ none) (env : HeartbeatEnv) :
    ((heartbeat s env).Live ↔ ReconnectedUp s env) ∧ ((s.beat env).dom = none ↔ ReconnectFails s env) := by
  by_cases hattempt : ∃ r, Attempts s env r
  · obtain ⟨r, hr⟩ := hattempt
    obtain ⟨hlink, hret, hnew⟩ := heartbeat_of_attempts hr
    have hkept : (s.beat env).dom ≠ none ↔ (r.retry env).1 = true := by
      rw [hnew]
      exact KvmiRuntime.dom_connect_iff
    constructor
    · constructor
      · intro hlive r' dom _ hdom'
        obtain ⟨dom', hheld, hup⟩ := hlive (hret.mpr (hkept.mp (by rw [hdom']; exact Option.some_ne_none _)))
        have heq : dom' = dom := Option.some.inj (hheld.symm.trans hdom')
        rw [hlink, heq] at hup
        exact hup
      · intro hup hzero
        obtain ⟨dom, hheld⟩ := Option.ne_none_iff_exists'.mp (hkept.mpr (hret.mp hzero))
        refine ⟨dom, hheld, ?_⟩
        rw [hlink]
        exact hup r dom hr hheld
    · constructor
      · intro hnone
        refine ⟨r, hr, ?_⟩
        exact Bool.eq_false_iff.mpr fun hok => hkept.mpr hok hnone
      · intro ⟨r', hr', hfail⟩
        have heq : r' = r := Option.some.inj (hr'.1.symm.trans hr.1)
        rw [heq] at hfail
        by_contra hne
        rw [hkept.mp hne] at hfail
        cases hfail
  · have hnot : ∀ r, ¬ Attempts s env r := fun r hr => hattempt ⟨r, hr⟩
    obtain ⟨hkeep, hlive⟩ := heartbeat_of_not_attempts hdom hnot
    refine ⟨iff_of_true hlive fun r _ hr => absurd hr (hnot r), ?_⟩
    rw [hkeep]
    exact iff_of_false hdom fun ⟨r, hr, _⟩ => hnot r hr

end beat

/-! Sequences of heartbeats. -/

theorem live_iff (s : KvmiSession) (hdom : s.dom ≠ none) (envs : List HeartbeatEnv) :
    Along KvmiSession.beat (fun s env => (heartbeat s env).Live) s envs ↔
      Along KvmiSession.beat (fun s env => ¬ ReconnectFails s env) s envs.dropLast ∧
        Along KvmiSession.beat ReconnectedUp s envs := by
  induction envs generalizing s with
  | nil => exact ⟨fun _ => ⟨trivial, trivial⟩, fun _ => trivial⟩
  | cons env envs ih =>
    obtain ⟨hlive, hlost⟩ := heartbeat_spec hdom env
    cases envs with
    | nil => exact ⟨fun h => ⟨trivial, hlive.mp h.1, trivial⟩, fun h => ⟨hlive.mpr h.2.1, trivial⟩⟩
    | cons env' envs =>
      rw [List.dropLast_cons_cons]
      constructor
      · intro ⟨hfirst, hrest⟩
        -- a lost domain shows at the next heartbeat
        have hkept : (s.beat env).dom ≠ none := by
          intro hnone
          have hnext : (heartbeat (s.beat env) env').Live := hrest.1
          rw [heartbeat_dead hnone] at hnext
          obtain ⟨dom, hheld, -⟩ := hnext rfl
          rw [show (HeartbeatResult.mk 0 (s.beat env) env'.connected).session.dom = none from hnone] at hheld
          cases hheld
        obtain ⟨hfails, hup⟩ := (ih (s.beat env) hkept).mp hrest
        exact ⟨⟨fun hfail => hkept (hlost.mpr hfail), hfails⟩, hlive.mp hfirst, hup⟩
      · intro ⟨⟨hfirst, hfails⟩, hup, hups⟩
        have hkept : (s.beat env).dom ≠ none := fun hnone => hfirst (hlost.mp hnone)
        exact ⟨hlive.mpr hup, (ih (s.beat env) hkept).mpr ⟨hfails, hups⟩⟩

/-- **Dead for good.** Whatever comes after a failed reconnect, every heartbeat returns 0 and leaves
    the session as it is. -/
theorem dead_after_failed_reconnect {s : KvmiSession} {env : HeartbeatEnv} (hdom : s.dom ≠ none)
    (hfail : ReconnectFails s env) (envs : List HeartbeatEnv) (env' : HeartbeatEnv) :
    heartbeat (run KvmiSession.beat (s.beat env) envs) env' = ⟨0, s.beat env, env'.connected⟩ := by
  have hnone : (s.beat env).dom = none := (heartbeat_spec hdom env).2.mpr hfail
  have hrun : run KvmiSession.beat (s.beat env) envs = s.beat env := by
    refine run_inv (I := (· = s.beat env)) (fun s' env'' hs => ?_) rfl envs
    rw [hs, KvmiSession.beat, heartbeat_dead hnone]
  rw [hrun, heartbeat_dead hnone]

theorem attachLibkvmi_dom {session s : KvmiSession} {vmName : CStr} {env : AttachEnv}
    (h : attachLibkvmi session vmName env = some s) : s.dom ≠ none := by
  unfold attachLibkvmi at h
  split at h
  · cases h
  · next socketPath _ =>
    split at h
    · cases h
    · dsimp only at h
      split at h
      · cases h
      · next hok =>
        cases h
        exact KvmiRuntime.dom_connect_iff.mpr (not_not.mp hok)

/-- **Session liveness reporting.** For every session that libkvmi was attached to and every sequence
    of heartbeats, whatever each of them meets: all of them return 0 only with the runtime connected
    to its domain, if and only if no reconnect fails but perhaps that of the last heartbeat, and every
    reconnect leaves a domain that is connected on return. -/
theorem heartbeat_live_iff (session : KvmiSession) (vmName : CStr) (env : AttachEnv) (s : KvmiSession)
    (hattach : attachLibkvmi session vmName env = some s) (envs : List HeartbeatEnv) :
    Along KvmiSession.beat (fun s env => (heartbeat s env).Live) s envs ↔
      Along KvmiSession.beat (fun s env => ¬ ReconnectFails s env) s envs.dropLast ∧
        Along KvmiSession.beat ReconnectedUp s envs :=
  live_iff s (attachLibkvmi_dom hattach) envs

def promptGuest : ConnectEnv := ⟨true, fun _ => [.accept 1, .handshake], []⟩

def attachedSession : KvmiSession :=
  ⟨some ⟨true, some 1, some 1, true, 0, ascii "guest", ascii "/run/kvmi.sock"⟩, 2⟩

theorem attachedSession_attached :
    attachLibkvmi ⟨none, 0⟩ (ascii "guest") ⟨some (ascii "/run/kvmi.sock"), true, promptGuest, some 2⟩ =
      some attachedSession := by
  decide +kernel

/-- The domain is gone, and the socket cannot be listened on. -/
def goneGuest : HeartbeatEnv := ⟨fun _ => false, ⟨false, fun _ => [], []⟩, none, fun _ => false⟩

/-- Three misses are reported, the third after the reconnect failed. The fourth heartbeat returns 0,
    without a domain. -/
theorem failed_reconnect_unreported :
    [1, 2, 3].map (fun n => (heartbeat (run KvmiSession.beat attachedSession (List.replicate (n - 1) goneGuest))
        goneGuest).ret) = [-1, -1, -1] ∧
      (run KvmiSession.beat attachedSession (List.replicate 3 goneGuest)).dom = none ∧
      (heartbeat (run KvmiSession.beat attachedSession (List.replicate 3 goneGuest)) goneGuest).ret = 0 := by
  decide +kernel

theorem heartbeat_live_connected :
    attachLibkvmi ⟨none, 0⟩ (ascii "guest") ⟨some (ascii "/run/kvmi.sock"), true, promptGuest, some 2⟩ =
        some attachedSession ∧
      Along KvmiSession.beat (fun s env => (heartbeat s env).Live) attachedSession
        [⟨fun _ => true, promptGuest, none, fun _ => true⟩] := by
  refine ⟨attachedSession_attached, ?_⟩
  refine (heartbeat_live_iff ⟨none, 0⟩ (ascii "guest")
    ⟨some (ascii "/run/kvmi.sock"), true, promptGuest, some 2⟩ attachedSession attachedSession_attached _).mpr
    ⟨trivial, fun _ _ _ _ => rfl, trivial⟩

end SentinelStack.Vmi
