import SentinelStack.Lib.CTypes
import SentinelStack.Lib.Run
import SentinelStack.Lib.Writes

/- The cross-layer bridge (`bridge.c`): the per-pid threat policy, the alert
   queue, and the two routes an alert takes to `vmi_alert_map` (immediate
   emission from `enqueue_alert`, batched emission from `bridge_flush_alerts`).

   The model is the libbpf build: `write_alert_to_map` sets the pinned map at
   the alert's pid. Whether the map could be opened and which updates the kernel
   accepts is the environment's (`MapEnv`). Clock readings are arguments of the
   operations that make them. Two logs are kept besides the C state: the alerts
   the policy let through (`accepted`) and the calls of `write_alert_to_map`
   with their results (`mapWrites`). Log lines and the alert stream, whose
   result `emit_alert` discards, are not modelled here. -/
namespace SentinelStack.Vmi
open SentinelStack.Lib

inductive ThreatLevel where
  | clean
  | suspicious
  | malicious
  deriving DecidableEq, Repr

/-- The value of the `VMI_THREAT_*` constant. -/
def ThreatLevel.value : ThreatLevel → Nat
  | .clean => 0
  | .suspicious => 1
  | .malicious => 2

instance : LT ThreatLevel := ⟨fun a b => a.value < b.value⟩

instance (a b : ThreatLevel) : Decidable (a < b) := inferInstanceAs (Decidable (a.value < b.value))

def vmiAlertReasonMax : Nat := 64
def alertQueueSize : Nat := 256
def pidPolicyTableSize : Nat := 1024
def policyEscalationCount : U32 := 3
def policyEscalationWindowNs : U64 := 10 * 1000000000
def policyDedupWindowNs : U64 := 1 * 1000000000

structure VmiAlert where
  pid : U32
  threatLevel : ThreatLevel
  timestampNs : U64
  reason : CStr
  deriving DecidableEq, Repr

structure QueuedAlert where
  alert : VmiAlert
  sentImmediately : Bool
  deriving DecidableEq, Repr

/-- `alert_queue` with its first `alert_count` entries: never more than the array holds. -/
structure AlertQueue where
  entries : List QueuedAlert
  count_le : entries.length ≤ alertQueueSize

def AlertQueue.empty : AlertQueue := ⟨[], by decide⟩

/-- `alert_queue[alert_count++] = a`, with room for it. -/
def AlertQueue.push (q : AlertQueue) (a : QueuedAlert) (h : q.entries.length < alertQueueSize) : AlertQueue :=
  ⟨q.entries ++ [a], by rw [List.length_append]; exact h⟩

/-- A zeroed entry is the one `memset` leaves. -/
structure PidPolicyState where
  pid : U32 := 0
  lastEffectiveThreat : ThreatLevel := .clean
  suspiciousBurst : U32 := 0
  burstWindowStartNs : U64 := 0
  lastEmitNs : U64 := 0
  used : Bool := false
  deriving DecidableEq, Repr

abbrev PolicyTable := Fin pidPolicyTableSize → PidPolicyState

/-- What the kernel does with the map: whether `bpf_obj_get` found it, and the outcome
    of the `n`-th `bpf_map_update_elem`. -/
structure MapEnv where
  bpfMapOpen : Bool
  updateOk : Nat → Bool

/-- The map is open and every update succeeds. -/
def MapEnv.Succeeds (env : MapEnv) : Prop := env.bpfMapOpen = true ∧ ∀ n, env.updateOk n = true

structure BridgeState where
  alertQueue : AlertQueue
  policyTable : PolicyTable
  vmiAlertMap : U32 → Option ThreatLevel
  totalAlertsProcessed : U64
  accepted : List (U32 × ThreatLevel)
  mapWrites : List (VmiAlert × Bool)

/-! The threat policy. -/

/-- The search loop of `get_policy_state`: the slot in use for `pid`, or else the first
    free slot met on the way. -/
def scanPolicy (t : PolicyTable) (pid : U32) :
    List (Fin pidPolicyTableSize) → Option (Fin pidPolicyTableSize) →
      Fin pidPolicyTableSize ⊕ Option (Fin pidPolicyTableSize)
  | [], freeSlot => .inr freeSlot
  | i :: rest, freeSlot =>
    if (t i).used ∧ (t i).pid = pid then .inl i
    else if ¬ (t i).used ∧ freeSlot = none then scanPolicy t pid rest (some i)
    else scanPolicy t pid rest freeSlot

/-- The slot of `pid` and the table holding it: a pid without a slot gets a zeroed free
    one, or the slot at `pid % 1024` when none is free. -/
def getPolicyState (t : PolicyTable) (pid : U32) : Fin pidPolicyTableSize × PolicyTable :=
  match scanPolicy t pid (List.finRange pidPolicyTableSize) none with
  | .inl i => (i, t)
  | .inr freeSlot =>
    let i := freeSlot.getD ⟨pid.toNat % pidPolicyTableSize, Nat.mod_lt _ (by decide)⟩
    (i, Function.update t i { pid := pid, used := true })

structure PolicyResult where
  effective : ThreatLevel
  suppressEmit : Bool
  escalated : Bool
  policyTable : PolicyTable

/-- One more suspicious signal: the window restarts when it was never opened or has run out. -/
def countSuspicious (state : PidPolicyState) (nowNs : U64) : PidPolicyState :=
  let state :=
    if state.burstWindowStartNs = 0 ∨ nowNs - state.burstWindowStartNs > policyEscalationWindowNs then
      { state with burstWindowStartNs := nowNs, suspiciousBurst := 0 }
    else state
  { state with suspiciousBurst := state.suspiciousBurst + 1 }

/-- The burst half of `apply_threat_policy`: the slot, the effective level and whether
    it was escalated. -/
def applyBurst (state : PidPolicyState) (requested : ThreatLevel) (nowNs : U64) :
    PidPolicyState × ThreatLevel × Bool :=
  if requested = .suspicious then
    let state := countSuspicious state nowNs
    if state.suspiciousBurst ≥ policyEscalationCount then (state, .malicious, true)
    else (state, requested, false)
  else
    ({ state with suspiciousBurst := 0, burstWindowStartNs := nowNs }, requested, false)

def applyThreatPolicy (t : PolicyTable) (pid : U32) (requested : ThreatLevel) (nowNs : U64) : PolicyResult :=
  let slot := getPolicyState t pid
  let burst := applyBurst (slot.2 slot.1) requested nowNs
  let state := burst.1
  let effective := burst.2.1
  let escalated := burst.2.2
  -- an escalated alert is never a duplicate
  let suppress : Bool :=
    effective = state.lastEffectiveThreat ∧ nowNs - state.lastEmitNs < policyDedupWindowNs ∧ ¬ escalated
  let state :=
    if suppress then state else { state with lastEffectiveThreat := effective, lastEmitNs := nowNs }
  { effective := effective, suppressEmit := suppress, escalated := escalated,
    policyTable := Function.update slot.2 slot.1 state }

/-! The two routes to the map. -/

/-- `write_alert_to_map` (libbpf build): whether it returned 0, and the state after it. -/
def writeAlertToMap (env : MapEnv) (s : BridgeState) (alert : VmiAlert) : Bool × BridgeState :=
  let ok := env.bpfMapOpen && env.updateOk s.mapWrites.length
  (ok, { s with
    vmiAlertMap := if ok then Function.update s.vmiAlertMap alert.pid (some alert.threatLevel) else s.vmiAlertMap
    mapWrites := s.mapWrites ++ [(alert, ok)] })

def emitAlert (env : MapEnv) (s : BridgeState) (queued : QueuedAlert) : Bool × BridgeState :=
  let r := writeAlertToMap env s queued.alert
  (r.1, { r.2 with totalAlertsProcessed := r.2.totalAlertsProcessed + 1 })

/-- The loop of `bridge_flush_alerts` over the queue: entries already dispatched are skipped. -/
def flushLoop (env : MapEnv) (s : BridgeState) : List QueuedAlert → BridgeState
  | [] => s
  | q :: rest => flushLoop env (if q.sentImmediately then s else (emitAlert env s q).2) rest

def bridgeFlushAlerts (env : MapEnv) (s : BridgeState) : BridgeState :=
  if s.alertQueue.entries.length = 0 then s
  else { flushLoop env s s.alertQueue.entries with alertQueue := .empty }

/-- The queue entry `enqueue_alert` fills in. -/
def newAlert (pid : U32) (level : ThreatLevel) (reason : Option CStr) (timestampNs : U64) : VmiAlert where
  pid := pid
  threatLevel := level
  timestampNs := timestampNs
  reason := strncpyz vmiAlertReasonMax (reason.getD (ascii "unknown"))

/-- The queue entry is stored; an immediate one is emitted first and marked after, and
    keeps its place in the queue. -/
def pushAlert (env : MapEnv) (s : BridgeState) (alert : VmiAlert) (immediate : Bool)
    (h : s.alertQueue.entries.length < alertQueueSize) : BridgeState :=
  { (if immediate then (emitAlert env s ⟨alert, false⟩).2 else s) with
    alertQueue := s.alertQueue.push ⟨alert, immediate⟩ h }

def enqueueAlert (env : MapEnv) (s : BridgeState) (pid : U32) (level : ThreatLevel)
    (reason : Option CStr) (immediate : Bool) (timestampNs : U64) : BridgeState :=
  let s := if s.alertQueue.entries.length ≥ alertQueueSize then bridgeFlushAlerts env s else s
  if h : s.alertQueue.entries.length < alertQueueSize then
    pushAlert env s (newAlert pid level reason timestampNs) immediate h
  else s

/-! The public operations. -/

/-- Both signal functions: apply the policy, and queue what it does not suppress. They
    differ in the requested level and in which alerts go out at once. -/
def bridgeSignal (requested : ThreatLevel) (immediate : ThreatLevel → Bool) (env : MapEnv) (s : BridgeState)
    (pid : U32) (reason : Option CStr) (nowNs stampNs : U64) : BridgeState :=
  let r := applyThreatPolicy s.policyTable pid requested nowNs
  let s := { s with policyTable := r.policyTable }
  if r.suppressEmit then s
  else enqueueAlert env { s with accepted := s.accepted ++ [(pid, r.effective)] }
    pid r.effective reason (immediate r.effective) stampNs

def bridgeSignalMalicious : MapEnv → BridgeState → U32 → Option CStr → U64 → U64 → BridgeState :=
  bridgeSignal .malicious (fun _ => true)

def bridgeSignalSuspicious : MapEnv → BridgeState → U32 → Option CStr → U64 → U64 → BridgeState :=
  bridgeSignal .suspicious (fun effective => effective = .malicious)

/-- The state `bridge_init` leaves; the pinned map holds whatever it held. -/
def bridgeInit (vmiAlertMap : U32 → Option ThreatLevel) : BridgeState where
  alertQueue := .empty
  policyTable := fun _ => {}
  vmiAlertMap := vmiAlertMap
  totalAlertsProcessed := 0
  accepted := []
  mapWrites := []

/-- One call into the bridge. A signal reads the clock twice: for the policy (`nowNs`) and
    for the alert's timestamp (`stampNs`). -/
inductive BridgeOp where
  | signalMalicious (pid : U32) (reason : Option CStr) (nowNs stampNs : U64)
  | signalSuspicious (pid : U32) (reason : Option CStr) (nowNs stampNs : U64)
  | flushAlerts
  deriving DecidableEq, Repr

def bridgeStep (env : MapEnv) (s : BridgeState) : BridgeOp → BridgeState
  | .signalMalicious pid reason nowNs stampNs => bridgeSignalMalicious env s pid reason nowNs stampNs
  | .signalSuspicious pid reason nowNs stampNs => bridgeSignalSuspicious env s pid reason nowNs stampNs
  | .flushAlerts => bridgeFlushAlerts env s

/-- The state after a sequence of calls made after `bridge_init`. -/
def bridgeRun (env : MapEnv) (vmiAlertMap : U32 → Option ThreatLevel) (ops : List BridgeOp) : BridgeState :=
  run (bridgeStep env) (bridgeInit vmiAlertMap) ops

end SentinelStack.Vmi
